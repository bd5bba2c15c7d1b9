import ProxyConfig.Files.Tree
import ProxyConfig.Proofs.Session.Interleaving

/-! # A shared session is serializable

However the steps of requests that share a session interleave, they come to the same answers, the same
files and the same current path as if they were carried out one after the other in the order of their
arrival. No request is left waiting for good, and the only step that changes a file is the one in which
a save writes, to the path that the requests before it have left current.
-/

namespace ProxyConfig

/-- The path, or none, that a request makes current. -/
def SessionRequest.assigned? : SessionRequest → Option (Option String)
  | load path => some (some path)
  | assign path => some path
  | save _ | current => none

namespace Session

/-- The path that the latest of the requests has made current, or the one from before if none has. -/
def pathAfter (session : Session) (earlier : List SessionRequest) : Option String :=
  ((earlier.filterMap SessionRequest.assigned?).getLast?).getD session.current

variable {Files : Type} [FileSystem (StateM Files)]

theorem current_handle (session : Session) (request : SessionRequest) (files : Files) :
    ((session.handle request : StateM Files (SessionAnswer × Session)) files).1.2.current =
      (request.assigned?).getD session.current := by
  cases request with
  | load path => rfl
  | save text =>
    obtain ⟨path?⟩ := session
    cases path? <;> rfl
  | current => rfl
  | assign path => rfl

/-- A load makes its path current even if it cannot be read, and saving leaves the path as it is. -/
theorem current_handleAll (session : Session) (requests : List SessionRequest) (files : Files) :
    ((session.handleAll requests : StateM Files (List SessionAnswer × Session)) files).1.2.current =
      session.pathAfter requests := by
  induction requests generalizing session files with
  | nil => rfl
  | cons first rest ih =>
    let begun := (session.handle first : StateM Files (SessionAnswer × Session)) files
    have current : begun.1.2.current = (first.assigned?).getD session.current :=
      session.current_handle first files
    refine (ih begun.1.2 begun.2).trans ?_
    rw [pathAfter, pathAfter, current]
    cases assigned : first.assigned? with
    | none => rw [List.filterMap_cons_none assigned, Option.getD_none]
    | some path =>
      rw [List.filterMap_cons_some assigned, List.getLast?_cons, Option.getD_some, Option.getD_some]

end Session

namespace SharedSession

variable {ι Files : Type} [DecidableEq ι] [FileSystem (StateM Files)]
  {requests : ι → SessionRequest} {session : Session} {files : Files}
  {shared shared' : SharedSession ι Files}

section Runs

variable {done : List ι} {i : ι}

omit [DecidableEq ι] in
theorem serial_nil (requests : ι → SessionRequest) (session : Session) (files : Files) :
    Serial requests session files [] ⟨session, files, none, [], fun _ => .absent, []⟩ where
  arrived := rfl
  nodup := .nil
  absent _ _ := rfl
  waiting _ member := absurd member List.not_mem_nil
  answered := ⟨[], session, files, rfl, rfl, rfl, rfl⟩

/-- Every step keeps the requests in line. -/
theorem Serial.advance? (serial : shared.Serial requests session files done)
    (stepped : shared.advance? requests i = some shared') :
    ∃ done, shared'.Serial requests session files done := by
  rcases advance?_cases stepped with ⟨absent, rfl⟩ | ⟨others, free, first, rfl⟩ | ⟨working, rfl⟩ |
    ⟨answer, finished, rfl⟩
  · exact ⟨done, serial.arrive absent⟩
  · exact ⟨done, serial.acquire free first⟩
  · exact ⟨done, serial.perform working⟩
  · exact ⟨done ++ [i], serial.release finished⟩

theorem Serial.run? {schedule : List ι} (serial : shared.Serial requests session files done)
    (ran : shared.run? requests schedule = some shared') :
    ∃ done, shared'.Serial requests session files done := by
  induction schedule generalizing shared done with
  | nil =>
    cases ran
    exact ⟨done, serial⟩
  | cons i rest ih =>
    rw [SharedSession.run?, List.foldlM_cons] at ran
    obtain ⟨next, stepped, ran⟩ := Option.bind_eq_some_iff.mp ran
    obtain ⟨done, serial⟩ := serial.advance? stepped
    exact ih serial ran

omit [DecidableEq ι] in
/-- When all requests have their answers, they have done what they do one after the other. -/
theorem Serial.complete (serial : shared.Serial requests session files done)
    (all : ∀ i ∈ shared.arrived, ∃ answer, shared.stages i = .answered answer) :
    ∃ answers, shared.arrived.map shared.stages = answers.map .answered ∧
      (session.handleAll (shared.arrived.map requests) :
        StateM Files (List SessionAnswer × Session)) files =
          ((answers, shared.session), shared.files) := by
  have free : shared.holder = none := by
    by_contra held
    obtain ⟨i, holds⟩ := Option.ne_none_iff_exists'.mp held
    obtain ⟨answer, answered⟩ := all i (by simp [serial.arrived, holds])
    obtain ⟨_, _, _, -, -, stands⟩ := serial.midway holds
    rw [answered] at stands
    cases stands
  have nobody : shared.queue = [] := by
    refine List.eq_nil_iff_forall_not_mem.mpr fun i queued => ?_
    obtain ⟨answer, answered⟩ := all i (by simp [serial.arrived, queued])
    rw [serial.waiting i queued] at answered
    cases answered
  have everyone : shared.arrived = done := by simp [serial.arrived, free, nobody]
  obtain ⟨answers, session', files', stages, handled, last⟩ := serial.answered
  rw [free] at last
  obtain ⟨rfl, rfl⟩ := last
  rw [everyone]
  exact ⟨answers, stages, handled⟩

/-- As long as a request has no answer, one of those that were made can take a step: the holder of the
lock, or the first in the queue. -/
theorem Serial.progress (serial : shared.Serial requests session files done)
    (here : i ∈ shared.arrived) (unanswered : ∀ answer, shared.stages i ≠ .answered answer) :
    ∃ j ∈ shared.arrived, (shared.advance? requests j).isSome = true := by
  cases holds : shared.holder with
  | some j =>
    refine ⟨j, by simp [serial.arrived, holds], ?_⟩
    obtain ⟨_, _, _, -, -, stands⟩ := serial.midway holds
    generalize stage : shared.stages j = reached, shared.session = current at stands
    cases stands <;> simp [SharedSession.advance?, stage]
  | none =>
    rcases serial.place here with ⟨-, answer, answered⟩ | held | ⟨queued, -⟩
    · exact absurd answered (unanswered answer)
    · rw [holds] at held
      cases held
    · cases queue : shared.queue with
      | nil =>
        rw [queue] at queued
        cases queued
      | cons first others =>
        refine ⟨first, by simp [serial.arrived, queue], ?_⟩
        have waits := serial.waiting first (by simp [queue])
        simp [SharedSession.advance?, waits, holds, queue]

end Runs

section Writes

variable (reads : ∀ path files,
  ((FileSystem.read path : StateM Files (Except AccessError ByteArray)) files).2 = files)

include reads

omit [DecidableEq ι] in
theorem files_readText (path : String) (files : Files) :
    ((FileSystem.readText path : StateM Files (Except AccessError String)) files).2 = files := by
  have seen := reads path files
  rw [FileSystem.readText]
  simp only [bind, StateT.bind]
  generalize (FileSystem.read path : StateM Files (Except AccessError ByteArray)) files = result
    at seen ⊢
  obtain ⟨content, after⟩ := result
  cases seen
  cases content with
  | error e => rfl
  | ok bytes =>
    dsimp only
    cases String.fromUTF8? bytes <;> rfl

/-- Of the steps under the lock only the one in which a save writes does anything to the files. -/
theorem files_work (request : SessionRequest) (stage : RequestStage) (session : Session)
    (files : Files) :
    ((work request stage session : StateM Files (RequestStage × Session)) files).2 = files ∨
      ∃ path text, stage = .writing path text ∧
        ((work request stage session : StateM Files (RequestStage × Session)) files).2 =
          ((FileSystem.writeText path text : StateM Files (Except AccessError Unit)) files).2 := by
  cases stage with
  | holding =>
    cases request with
    | save text =>
      obtain ⟨path?⟩ := session
      cases path? <;> exact .inl rfl
    | load path | current | assign path => exact .inl rfl
  | reading path => exact .inl (files_readText reads path files)
  | writing path text => exact .inr ⟨path, text, rfl, rfl⟩
  | absent | waiting | finished answer | answered answer => exact .inl rfl

/-- A step changes files only where a save writes to the path that the requests before it have made
current. -/
theorem Serial.writes {done : List ι} {i : ι} (serial : shared.Serial requests session files done)
    (stepped : shared.advance? requests i = some shared') :
    shared'.files = shared.files ∨ ∃ earlier later path text,
      shared.arrived = earlier ++ i :: later ∧ requests i = .save text ∧
        session.pathAfter (earlier.map requests) = some path ∧
        shared'.files = ((FileSystem.writeText path text :
          StateM Files (Except AccessError Unit)) shared.files).2 := by
  rcases advance?_cases stepped with ⟨-, rfl⟩ | ⟨others, -, -, rfl⟩ | ⟨working, rfl⟩ | ⟨answer, -, rfl⟩
  · exact .inl rfl
  · exact .inl rfl
  · rcases files_work reads (requests i) (shared.stages i) shared.session shared.files with
      same | ⟨path, text, stage, written⟩
    · exact .inl same
    · have holds := serial.holder (.inl working)
      obtain ⟨answers, session', files', -, handled, stands⟩ := serial.midway holds
      rw [stage] at stands
      have current := session.current_handleAll (done.map requests) files
      rw [handled] at current
      cases stands with
      | writing _ _ saves known =>
        refine .inr ⟨done, shared.queue, path, text, ?_, saves, current.symm.trans known, written⟩
        rw [serial.arrived, holds]
        rfl
  · exact .inl rfl

end Writes

/-- A shared session is serializable in the order of arrival. Whatever steps the requests have taken: if
all that were made have their answers, then answers, files and current path are those of carrying out
the requests one after the other in the order in which they were made; if not, one of them can go on;
and a further step changes files only where a save writes to the path that the latest load or
assignment before it has made current. -/
theorem serializable
    (reads : ∀ path files,
      ((FileSystem.read path : StateM Files (Except AccessError ByteArray)) files).2 = files)
    {schedule : List ι}
    (ran : ({ session, files } : SharedSession ι Files).run? requests schedule = some shared) :
    shared.arrived.Nodup ∧
      ((∀ i ∈ shared.arrived, ∃ answer, shared.stages i = .answered answer) →
        ∃ answers, shared.arrived.map shared.stages = answers.map .answered ∧
          (session.handleAll (shared.arrived.map requests) :
            StateM Files (List SessionAnswer × Session)) files =
              ((answers, shared.session), shared.files)) ∧
      (∀ i ∈ shared.arrived, (∀ answer, shared.stages i ≠ .answered answer) →
        ∃ j ∈ shared.arrived, (shared.advance? requests j).isSome = true) ∧
      ∀ i shared', shared.advance? requests i = some shared' →
        shared'.files = shared.files ∨ ∃ earlier later path text,
          shared.arrived = earlier ++ i :: later ∧ requests i = .save text ∧
            session.pathAfter (earlier.map requests) = some path ∧
            shared'.files = ((FileSystem.writeText path text :
              StateM Files (Except AccessError Unit)) shared.files).2 := by
  obtain ⟨done, serial⟩ := (serial_nil requests session files).run? ran
  refine ⟨serial.nodup, serial.complete, fun i here => serial.progress here, ?_⟩
  exact fun i shared' stepped => serial.writes reads stepped

/-- A save that waits behind a load, which finds no file, and before another one writes to the path of
the first. -/
theorem save_queued_before_load :
    let requests : Nat → SessionRequest := fun i =>
      match i with
      | 0 => .load "a"
      | 1 => .save "new"
      | _ => .load "b"
    let files : FileTree := ⟨.directory [("b", .file "old".toUTF8)], []⟩
    ∃ shared, ({ session := {}, files } : SharedSession Nat FileTree).run? requests
        [0, 0, 1, 2, 0, 0, 0, 1, 1, 1, 1, 2, 2, 2, 2] = some shared ∧
      shared.arrived.map shared.stages =
        [.answered (.error (.access "a" .notFound)), .answered (.ok (some "a")),
          .answered (.ok (some "old"))] ∧
      shared.session.current = some "b" ∧ shared.files.read "a" = .ok "new".toUTF8 ∧
      shared.files.read "b" = .ok "old".toUTF8 := by
  intro requests files
  have made : (({ session := {}, files } : SharedSession Nat FileTree).run? requests
      [0, 0, 1, 2, 0, 0, 0, 1, 1, 1, 1, 2, 2, 2, 2]).map arrived = some [0, 1, 2] := rfl
  have reached : (({ session := {}, files } : SharedSession Nat FileTree).run? requests
      [0, 0, 1, 2, 0, 0, 0, 1, 1, 1, 1, 2, 2, 2, 2]).map (fun shared => [0, 1, 2].map shared.stages) =
        some [.answered (.error (.access "a" .notFound)), .answered (.ok (some "a")),
          .answered (.ok (some "old"))] := rfl
  obtain ⟨shared, ran, arrived⟩ := Option.map_eq_some_iff.mp made
  rw [ran, Option.map_some, ← arrived, Option.some.injEq] at reached
  obtain ⟨-, complete, -⟩ := serializable (fun _ _ => rfl) ran
  have all : ∀ i ∈ shared.arrived, ∃ answer, shared.stages i = .answered answer := by
    intro i here
    have listed : shared.stages i ∈ shared.arrived.map shared.stages := List.mem_map_of_mem here
    rw [reached] at listed
    simp only [List.mem_cons, List.not_mem_nil, or_false] at listed
    rcases listed with first | second | third
    · exact ⟨_, first⟩
    · exact ⟨_, second⟩
    · exact ⟨_, third⟩
  obtain ⟨answers, -, handled⟩ := complete all
  rw [arrived] at handled
  refine ⟨shared, ran, reached, ?_, ?_, ?_⟩
  · have current := congrArg (fun r => r.1.2.current) handled
    exact current.symm
  · have written := congrArg (fun r => r.2.read "a") handled
    exact written.symm
  · have kept := congrArg (fun r => r.2.read "b") handled
    exact kept.symm

end SharedSession

end ProxyConfig

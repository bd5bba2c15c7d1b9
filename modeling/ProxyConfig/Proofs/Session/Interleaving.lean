import ProxyConfig.Session
import Mathlib.Data.List.Nodup
import Mathlib.Logic.Function.Basic

/-! # Requests that share a session

Requests are carried out at the same time, and the session stands under a lock. A request asks for the
lock and waits in a queue; whoever is first in the queue takes the lock when it is free. Under the lock
a request works step by step: loading assigns the path before it reads the file, and saving observes the
path before it writes. When it has its answer, good or bad, it gives the lock back. In between any other
request may take a step.

The invariant is that the answered requests have done what they do one after the other in the order of
their arrival, and that the holder of the lock stands midway in its request behind those.
-/

namespace ProxyConfig

/-- What a request comes to. -/
abbrev SessionAnswer := Except SessionError (Option String)

/-- How far a request has come. -/
inductive RequestStage where
  /-- It has not been made yet. -/
  | absent
  | waiting
  /-- It has the lock and has done nothing yet. -/
  | holding
  | reading (path : String)
  | writing (path text : String)
  /-- It has its answer and still the lock. -/
  | finished (answer : SessionAnswer)
  | answered (answer : SessionAnswer)
deriving DecidableEq

/-- Whether a request works on the session or on files. -/
def RequestStage.isWorking : RequestStage → Bool
  | holding | reading _ | writing _ _ => true
  | _ => false

/-- A session under a lock, the files, the requests that wait for the lock, first come first, and how
far all of them have come. -/
structure SharedSession (ι Files : Type) where
  session : Session
  files : Files
  holder : Option ι := none
  queue : List ι := []
  stages : ι → RequestStage := fun _ => .absent
  /-- The requests in the order in which they were made. -/
  arrived : List ι := []

namespace SharedSession

variable {ι Files : Type} [DecidableEq ι] [FileSystem (StateM Files)]

/-- Asks for the lock. -/
def arrive (shared : SharedSession ι Files) (i : ι) : SharedSession ι Files :=
  { shared with
    queue := shared.queue ++ [i]
    stages := Function.update shared.stages i .waiting
    arrived := shared.arrived ++ [i] }

/-- Takes the lock, and leaves the others waiting. -/
def acquire (shared : SharedSession ι Files) (i : ι) (others : List ι) : SharedSession ι Files :=
  { shared with
    holder := some i
    queue := others
    stages := Function.update shared.stages i .holding }

/-- One step of a request under the lock. -/
def work (request : SessionRequest) (stage : RequestStage) (session : Session) :
    StateM Files (RequestStage × Session) :=
  match stage with
  | .holding =>
    match request with
    | .load path => return (.reading path, ⟨some path⟩)
    | .save text =>
      match session.current with
      | none => return (.finished (.error .noCurrentFile), session)
      | some path => return (.writing path text, session)
    | .current => return (.finished (.ok session.current), session)
    | .assign path => return (.finished (.ok none), ⟨path⟩)
  | .reading path => do
    let content ← FileSystem.readText path
    return (.finished ((content.mapError (.access path)).map some), session)
  | .writing path text => do
    let written ← FileSystem.writeText path text
    return (.finished (((written.mapError (.access path)).map fun _ => path).map some), session)
  | stage => return (stage, session)

/-- Takes the step of a request under the lock. -/
def perform (requests : ι → SessionRequest) (shared : SharedSession ι Files) (i : ι) :
    SharedSession ι Files :=
  let done := (work (requests i) (shared.stages i) shared.session : StateM Files _) shared.files
  { shared with
    session := done.1.2
    files := done.2
    stages := Function.update shared.stages i done.1.1 }

/-- Gives the lock back. -/
def release (shared : SharedSession ι Files) (i : ι) (answer : SessionAnswer) :
    SharedSession ι Files :=
  { shared with
    holder := none
    stages := Function.update shared.stages i (.answered answer) }

/-- The next step of a request, if it can take one. Nothing is checked but the stage of the request and,
for the one that wants the lock, the lock. -/
def advance? (requests : ι → SessionRequest) (shared : SharedSession ι Files) (i : ι) :
    Option (SharedSession ι Files) :=
  match shared.stages i with
  | .absent => some (shared.arrive i)
  | .waiting =>
    match shared.holder, shared.queue with
    | none, first :: others => if first = i then some (shared.acquire i others) else none
    | _, _ => none
  | .finished answer => some (shared.release i answer)
  | .answered _ => none
  | _ => some (shared.perform requests i)

/-- Lets requests take steps in the given order. -/
def run? (requests : ι → SessionRequest) (shared : SharedSession ι Files) (schedule : List ι) :
    Option (SharedSession ι Files) :=
  schedule.foldlM (advance? requests) shared

/-- What a step of a request can be. -/
theorem advance?_cases {requests : ι → SessionRequest} {shared shared' : SharedSession ι Files} {i : ι}
    (stepped : shared.advance? requests i = some shared') :
    (shared.stages i = .absent ∧ shared' = shared.arrive i) ∨
      (∃ others, shared.holder = none ∧ shared.queue = i :: others ∧
        shared' = shared.acquire i others) ∨
      ((shared.stages i).isWorking = true ∧ shared' = shared.perform requests i) ∨
      ∃ answer, shared.stages i = .finished answer ∧ shared' = shared.release i answer := by
  rw [advance?] at stepped
  split at stepped
  · next absent => exact .inl ⟨absent, (Option.some.inj stepped).symm⟩
  · split at stepped
    · next first others free queued =>
      split at stepped
      · next same =>
        subst same
        exact .inr (.inl ⟨others, free, queued, (Option.some.inj stepped).symm⟩)
      · cases stepped
    · cases stepped
  · next answer finished =>
    exact .inr (.inr (.inr ⟨answer, finished, (Option.some.inj stepped).symm⟩))
  · cases stepped
  · next absent waiting finished answered =>
    refine .inr (.inr (.inl ⟨?_, (Option.some.inj stepped).symm⟩))
    cases stage : shared.stages i with
    | absent => exact absurd stage absent
    | waiting => exact absurd stage waiting
    | finished answer => exact absurd stage (finished answer)
    | answered answer => exact absurd stage (answered answer)
    | holding | reading _ | writing _ _ => rfl

end SharedSession

/-- Where the holder of the lock stands in a request that it began with the given session and files. -/
inductive Midway {Files : Type} [FileSystem (StateM Files)] (request : SessionRequest)
    (session : Session) (files : Files) : RequestStage → Session → Files → Prop
  | holding : Midway request session files .holding session files
  | reading (path : String) (loads : request = .load path) :
      Midway request session files (.reading path) ⟨some path⟩ files
  | writing (path text : String) (saves : request = .save text)
      (current : session.current = some path) :
      Midway request session files (.writing path text) session files
  | finished (answer : SessionAnswer) (session' : Session) (files' : Files)
      (handled : (session.handle request : StateM Files (SessionAnswer × Session)) files =
        ((answer, session'), files')) :
      Midway request session files (.finished answer) session' files'

namespace Midway

variable {Files : Type} [FileSystem (StateM Files)] {request : SessionRequest}
  {session session' : Session} {files files' : Files} {stage : RequestStage}

/-- A step under the lock leads on in the same request. -/
theorem work (midway : Midway request session files stage session' files')
    (working : stage.isWorking = true) :
    let done := (SharedSession.work request stage session' : StateM Files _) files'
    Midway request session files done.1.1 done.1.2 done.2 := by
  cases midway with
  | holding =>
    cases request with
    | load path => exact .reading path rfl
    | save text =>
      cases current : session.current with
      | none =>
        rw [SharedSession.work, current]
        refine .finished _ _ _ ?_
        rw [Session.handle, Session.save, current]
        rfl
      | some path =>
        rw [SharedSession.work, current]
        exact .writing path text rfl current
    | current => exact .finished _ _ _ rfl
    | assign path => exact .finished _ _ _ rfl
  | reading path loads =>
    subst loads
    exact .finished _ _ _ rfl
  | writing path text saves current =>
    subst saves
    refine .finished _ _ _ ?_
    rw [Session.handle, Session.save, current]
    rfl
  | finished answer session' files' handled => cases working

end Midway

namespace Session

variable {Files : Type} [FileSystem (StateM Files)]

/-- A further request is carried out behind the others. -/
theorem handleAll_concat (session : Session) (files : Files) (earlier : List SessionRequest)
    (request : SessionRequest) :
    (session.handleAll (earlier ++ [request]) : StateM Files (List SessionAnswer × Session)) files =
      let before := (session.handleAll earlier : StateM Files (List SessionAnswer × Session)) files
      let last := (before.1.2.handle request : StateM Files (SessionAnswer × Session)) before.2
      ((before.1.1 ++ [last.1.1], last.1.2), last.2) := by
  induction earlier generalizing session files with
  | nil => rfl
  | cons first rest ih =>
    have cons (requests : List SessionRequest) :
        (session.handleAll (first :: requests) : StateM Files (List SessionAnswer × Session)) files =
          let begun := (session.handle first : StateM Files (SessionAnswer × Session)) files
          let behind := (begun.1.2.handleAll requests :
            StateM Files (List SessionAnswer × Session)) begun.2
          ((begun.1.1 :: behind.1.1, behind.1.2), behind.2) := rfl
    rw [List.cons_append, cons, cons]
    dsimp only
    rw [ih]
    rfl

end Session

namespace SharedSession

variable {ι Files : Type} [FileSystem (StateM Files)]
  {requests : ι → SessionRequest} {session : Session} {files : Files}
  {shared shared' : SharedSession ι Files}

/-- The answered requests have done what they do one after the other, and the holder of the lock is
midway in its request behind them. -/
structure Serial (requests : ι → SessionRequest) (session : Session) (files : Files) (done : List ι)
    (shared : SharedSession ι Files) : Prop where
  arrived : shared.arrived = done ++ (shared.holder.toList ++ shared.queue)
  nodup : shared.arrived.Nodup
  absent : ∀ i, i ∉ shared.arrived → shared.stages i = .absent
  waiting : ∀ i ∈ shared.queue, shared.stages i = .waiting
  answered : ∃ answers session' files', done.map shared.stages = answers.map .answered ∧
    (session.handleAll (done.map requests) : StateM Files (List SessionAnswer × Session)) files =
      ((answers, session'), files') ∧
    match shared.holder with
    | none => shared.session = session' ∧ shared.files = files'
    | some i => Midway (requests i) session' files' (shared.stages i) shared.session shared.files

namespace Serial

variable {done : List ι} (serial : shared.Serial requests session files done) {i : ι}

include serial

/-- A request that was made has its answer, holds the lock or waits for it. -/
theorem place (here : i ∈ shared.arrived) :
    i ∈ done ∧ (∃ answer, shared.stages i = .answered answer) ∨ shared.holder = some i ∨
      i ∈ shared.queue ∧ shared.stages i = .waiting := by
  rw [serial.arrived, List.mem_append, List.mem_append] at here
  rcases here with before | holds | behind
  · obtain ⟨answers, -, -, stages, -⟩ := serial.answered
    have listed : shared.stages i ∈ done.map shared.stages := List.mem_map_of_mem before
    rw [stages] at listed
    obtain ⟨answer, -, same⟩ := List.mem_map.mp listed
    exact .inl ⟨before, answer, same.symm⟩
  · exact .inr (.inl (Option.mem_toList.mp holds))
  · exact .inr (.inr ⟨behind, serial.waiting i behind⟩)

theorem midway (holds : shared.holder = some i) : ∃ answers session' files',
    done.map shared.stages = answers.map .answered ∧
      (session.handleAll (done.map requests) : StateM Files (List SessionAnswer × Session)) files =
        ((answers, session'), files') ∧
      Midway (requests i) session' files' (shared.stages i) shared.session shared.files := by
  obtain ⟨answers, session', files', stages, handled, stands⟩ := serial.answered
  rw [holds] at stands
  exact ⟨answers, session', files', stages, handled, stands⟩

theorem not_mem_of_absent (absent : shared.stages i = .absent) : i ∉ shared.arrived := by
  intro here
  rcases serial.place here with ⟨-, answer, stage⟩ | holds | ⟨-, stage⟩
  · rw [absent] at stage
    cases stage
  · obtain ⟨_, _, _, -, -, stands⟩ := serial.midway holds
    rw [absent] at stands
    cases stands
  · rw [absent] at stage
    cases stage

/-- A request that works, or has just got its answer, holds the lock. -/
theorem holder (busy : (shared.stages i).isWorking = true ∨ ∃ answer, shared.stages i = .finished answer) :
    shared.holder = some i := by
  have here : i ∈ shared.arrived := by
    by_contra elsewhere
    have absent := serial.absent i elsewhere
    simp [absent, RequestStage.isWorking] at busy
  rcases serial.place here with ⟨-, answer, stage⟩ | holds | ⟨-, stage⟩
  · simp [stage, RequestStage.isWorking] at busy
  · exact holds
  · simp [stage, RequestStage.isWorking] at busy

/-- The holder of the lock is neither among the answered requests nor in the queue. -/
theorem apart (holds : shared.holder = some i) : i ∉ done ∧ i ∉ shared.queue := by
  have distinct := serial.nodup
  rw [serial.arrived, holds, Option.toList_some, List.singleton_append] at distinct
  obtain ⟨-, behind, separate⟩ := List.nodup_append.mp distinct
  exact ⟨fun before => separate i before i (List.mem_cons_self ..) rfl, (List.nodup_cons.mp behind).1⟩

end Serial

section Steps

variable [DecidableEq ι] {done : List ι} {i : ι} {stage : RequestStage}

omit [FileSystem (StateM Files)] in
theorem map_update (elsewhere : i ∉ done) (stages : ι → RequestStage) :
    done.map (Function.update stages i stage) = done.map stages := by
  refine List.map_congr_left fun j member => Function.update_of_ne ?_ _ _
  rintro rfl
  exact elsewhere member

namespace Serial

/-- The holder of the lock leaves the requests that were not made and those in the queue. -/
theorem update_holder (serial : shared.Serial requests session files done)
    (holds : shared.holder = some i) :
    (∀ j, j ∉ shared.arrived → Function.update shared.stages i stage j = .absent) ∧
      ∀ j ∈ shared.queue, Function.update shared.stages i stage j = .waiting := by
  constructor
  · intro j outside
    have other : j ≠ i := by
      rintro rfl
      simp [serial.arrived, holds] at outside
    rw [Function.update_of_ne other, serial.absent j outside]
  · intro j queued
    have other : j ≠ i := by
      rintro rfl
      exact (serial.apart holds).2 queued
    rw [Function.update_of_ne other, serial.waiting j queued]

theorem arrive (serial : shared.Serial requests session files done)
    (absent : shared.stages i = .absent) :
    (shared.arrive i).Serial requests session files done := by
  have fresh := serial.not_mem_of_absent absent
  have elsewhere : i ∉ done ∧ i ∉ shared.holder.toList ∧ i ∉ shared.queue := by
    rw [serial.arrived] at fresh
    simpa only [List.mem_append, not_or] using fresh
  refine ⟨?_, ?_, fun j outside => ?_, fun j queued => ?_, ?_⟩
  · change shared.arrived ++ [i] = done ++ (shared.holder.toList ++ (shared.queue ++ [i]))
    rw [serial.arrived, List.append_assoc, List.append_assoc]
  · change (shared.arrived ++ [i]).Nodup
    rw [← List.concat_eq_append]
    exact serial.nodup.concat fresh
  · change j ∉ shared.arrived ++ [i] at outside
    rw [List.mem_append, List.mem_singleton, not_or] at outside
    change Function.update shared.stages i _ j = _
    rw [Function.update_of_ne outside.2, serial.absent j outside.1]
  · change Function.update shared.stages i _ j = _
    by_cases same : j = i
    · rw [same, Function.update_self]
    · rcases List.mem_append.mp queued with before | last
      · rw [Function.update_of_ne same, serial.waiting j before]
      · exact absurd (List.mem_singleton.mp last) same
  · obtain ⟨answers, session', files', stages, handled, stands⟩ := serial.answered
    refine ⟨answers, session', files', (map_update elsewhere.1 _).trans stages, handled, ?_⟩
    change match shared.holder with
      | none => _
      | some k => Midway (requests k) session' files' (Function.update shared.stages i .waiting k) _ _
    cases holds : shared.holder with
    | none =>
      rw [holds] at stands
      exact stands
    | some k =>
      rw [holds] at stands elsewhere
      have other : k ≠ i := fun same => elsewhere.2.1 (by simp [same])
      dsimp only
      rw [Function.update_of_ne other]
      exact stands

theorem acquire (serial : shared.Serial requests session files done) {others : List ι}
    (free : shared.holder = none) (first : shared.queue = i :: others) :
    (shared.acquire i others).Serial requests session files done := by
  have arrived := serial.arrived
  have distinct := serial.nodup
  rw [free, first, Option.toList_none, List.nil_append] at arrived
  rw [arrived] at distinct
  obtain ⟨-, behind, separate⟩ := List.nodup_append.mp distinct
  have elsewhere : i ∉ done := fun before => separate i before i (List.mem_cons_self ..) rfl
  refine ⟨arrived, serial.nodup, fun j outside => ?_, fun j queued => ?_, ?_⟩
  · have other : j ≠ i := by
      rintro rfl
      apply outside
      change j ∈ shared.arrived
      rw [arrived]
      simp
    change Function.update shared.stages i _ j = _
    rw [Function.update_of_ne other, serial.absent j outside]
  · have other : j ≠ i := by
      rintro rfl
      exact (List.nodup_cons.mp behind).1 queued
    change Function.update shared.stages i _ j = _
    rw [Function.update_of_ne other]
    apply serial.waiting
    rw [first]
    exact List.mem_cons_of_mem _ queued
  · obtain ⟨answers, session', files', stages, handled, stands⟩ := serial.answered
    rw [free] at stands
    obtain ⟨rfl, rfl⟩ := stands
    refine ⟨answers, _, _, (map_update elsewhere _).trans stages, handled, ?_⟩
    change Midway _ _ _ (Function.update shared.stages i .holding i) _ _
    rw [Function.update_self]
    exact .holding

theorem perform (serial : shared.Serial requests session files done)
    (working : (shared.stages i).isWorking = true) :
    (shared.perform requests i).Serial requests session files done := by
  have holds := serial.holder (.inl working)
  have before := (serial.apart holds).1
  obtain ⟨absent, waiting⟩ := serial.update_holder holds
  refine ⟨serial.arrived, serial.nodup, absent, waiting, ?_⟩
  obtain ⟨answers, session', files', stages, handled, stands⟩ := serial.midway holds
  refine ⟨answers, session', files', (map_update before _).trans stages, handled, ?_⟩
  change match shared.holder with
    | none => _
    | some k => Midway (requests k) session' files' (Function.update shared.stages i _ k) _ _
  rw [holds]
  dsimp only
  rw [Function.update_self]
  exact stands.work working

theorem release (serial : shared.Serial requests session files done) {answer : SessionAnswer}
    (finished : shared.stages i = .finished answer) :
    (shared.release i answer).Serial requests session files (done ++ [i]) := by
  have holds := serial.holder (.inr ⟨answer, finished⟩)
  have before := (serial.apart holds).1
  obtain ⟨absent, waiting⟩ := serial.update_holder holds
  have arrived := serial.arrived
  rw [holds, Option.toList_some, ← List.append_assoc] at arrived
  refine ⟨arrived, serial.nodup, absent, waiting, ?_⟩
  obtain ⟨answers, session', files', stages, handled, stands⟩ := serial.midway holds
  rw [finished] at stands
  cases stands with
  | finished _ _ _ last =>
    refine ⟨answers ++ [answer], shared.session, shared.files, ?_, ?_, rfl, rfl⟩
    · change (done ++ [i]).map (Function.update shared.stages i _) = _
      rw [List.map_append, List.map_append, map_update before, stages, List.map_singleton,
        List.map_singleton, Function.update_self]
    · rw [List.map_append, List.map_singleton, Session.handleAll_concat, handled]
      dsimp only
      rw [last]

end Serial

end Steps

end SharedSession

end ProxyConfig

import ProxyConfig.Files.Tree
import ProxyConfig.Proofs.Server.Documents

/-! # Published diagnostics

A running server takes each notice about a document as an event of its history, and every other
message leaves the documents as they are and publishes nothing. So whatever a client sends, and in
whatever order, the documents are those that their histories lead to, and what was published last for
a document are the diagnostics of its text. Files are touched on the way, but nothing here depends on
them.
-/

namespace ProxyConfig

section Ensures

variable {W α β : Type}

/-- The computation comes to a value with the property, whatever the files are. -/
def Ensures (x : StateM W α) (p : α → Prop) : Prop := ∀ files, p (x files).1

theorem Ensures.pure {p : α → Prop} {a : α} (holds : p a) : Ensures (Pure.pure a : StateM W α) p :=
  fun _ => holds

theorem Ensures.bind {x : StateM W α} {next : α → StateM W β} {p : α → Prop} {q : β → Prop}
    (first : Ensures x p) (behind : ∀ a, p a → Ensures (next a) q) : Ensures (x >>= next) q :=
  fun files => behind _ (first files) _

theorem Ensures.and {x : StateM W α} {p q : α → Prop} (left : Ensures x p) (right : Ensures x q) :
    Ensures x fun a => p a ∧ q a := fun files => ⟨left files, right files⟩

theorem Ensures.any (x : StateM W α) : Ensures x fun _ => True := fun _ => trivial

end Ensures

namespace ClientMessage

/-- Whether a server hears of no event behind this message. -/
def endsService (message : ClientMessage) : Bool :=
  message.method == ServerRequest.stopMethod || message.method == ServerNotice.exitMethod

/-- What the message tells about a document, if it is a notice about one. -/
def event? (message : ClientMessage) : Option (Uri × DocumentEvent) :=
  if message.isRequest then none
  else
    match ServerNotice.read? message.method message.params with
    | some (.document uri event) => some (uri, event)
    | _ => none

end ClientMessage

/-- The events that a running server hears of in the messages. -/
def heardEvents (messages : List ClientMessage) : List (Uri × DocumentEvent) :=
  (messages.takeWhile fun message => !message.endsService).filterMap ClientMessage.event?

def Announcement.publication? : Announcement → Option Publication
  | ready => none
  | diagnostics publication => some publication

/-- What a reply publishes. -/
def Reply.publications (reply : Reply) : List Publication :=
  reply.announcements.filterMap Announcement.publication?

namespace ServerRequest

variable {root : Option Uri} {encodings : Option (List String)}

private theorem queryAt?_ne_start (query : ClientPosition → Query) (document position : Option Json) :
    queryAt? query document position ≠ some (.start root encodings) := by
  simp [queryAt?, Option.bind_eq_some_iff]

/-- The readers behind the first one read queries and commands. -/
private theorem ne_start_of_mem_methods {entry : String × (Json → Option ServerRequest)} (params : Json)
    (listed : entry ∈ methods.tail) : entry.2 params ≠ some (.start root encodings) := by
  simp only [methods, List.tail_cons, List.mem_cons, List.not_mem_nil, or_false] at listed
  rcases listed with rfl | rfl | rfl | rfl | rfl | rfl | rfl | rfl
  · exact queryAt?_ne_start _ _ _
  · exact queryAt?_ne_start _ _ _
  · intro parsed
    simp only [readReferences?, Option.bind_eq_bind, Option.bind_eq_some_iff] at parsed
    obtain ⟨_, -, _, -, parsed⟩ := parsed
    split at parsed
    · obtain ⟨_, -, parsed⟩ := Option.bind_eq_some_iff.mp parsed
      exact queryAt?_ne_start _ _ _ parsed
    · cases parsed
  · intro parsed
    simp only [readPrepareRename?, Option.bind_eq_bind, Option.bind_eq_some_iff] at parsed
    obtain ⟨_, -, parsed⟩ := parsed
    split at parsed
    · exact queryAt?_ne_start _ _ _ parsed
    · cases parsed
  · intro parsed
    simp only [readRename?, Option.bind_eq_bind, Option.bind_eq_some_iff] at parsed
    obtain ⟨_, -, _, -, parsed⟩ := parsed
    exact queryAt?_ne_start _ _ _ parsed
  · simp [readSymbols?, Option.bind_eq_some_iff]
  · exact queryAt?_ne_start _ _ _
  · intro parsed
    simp only [readExecute?] at parsed
    split at parsed <;> simp [Option.bind_eq_some_iff] at parsed

/-- Only the method to start reads as a start. -/
theorem method_of_read_start {method : String} {params : Option Json}
    (read : ServerRequest.read method params = .ok (.start root encodings)) : method = startMethod := by
  unfold ServerRequest.read at read
  split at read
  · split at read <;> cases read
  split at read
  · cases read
  · cases read
  next params reader found =>
  split at read
  · cases read
  next parsed =>
  cases read
  have listed : (method, reader) ∈ methods := by
    obtain ⟨before, after, split, -⟩ := List.lookup_eq_some_iff.mp found
    simp [split]
  rcases List.mem_cons.mp listed with first | behind
  · exact congrArg Prod.fst first
  · exact absurd parsed (ne_start_of_mem_methods params behind)

end ServerRequest

namespace Server

variable {W : Type} [FileSystem (StateM W)]

/-- Deals with messages, one after the other. -/
def receiveAll (server : Server) : List ClientMessage → StateM W (List Reply × Server)
  | [] => return ([], server)
  | message :: rest => do
    let (reply, server) ← server.receive message
    let (replies, server) ← server.receiveAll rest
    return (reply :: replies, server)

/-- The event that a server hears of in a message. -/
def hears? (server : Server) (message : ClientMessage) : Option (Uri × DocumentEvent) :=
  if server.phase = .running ∧ message.endsService = false then message.event? else none

/-- What a message does to a server that was started, its session apart. -/
structure Step (server : Server) (message : ClientMessage) (reply : Reply) (server' : Server) : Prop where
  settings : server'.settings = server.settings
  encoding : server'.encoding = server.encoding
  started : server'.phase ≠ .idle
  running : server'.phase = .running ↔ server.phase = .running ∧ message.endsService = false
  documents : server'.documents =
    match server.hears? message with
    | none => server.documents
    | some (uri, event) => server.documents.record uri event
  publications : reply.publications =
    match server.hears? message with
    | none => []
    | some (uri, event) => (server.record uri event).1.toList

section Requests

theorem starts (server : Server) (root : Option Uri) (encodings : Option (List String)) :
    Ensures (server.start root encodings : StateM W Server) fun started =>
      ∃ settings, started =
        { server with phase := .running, settings, encoding := .negotiate encodings } := by
  rw [start]
  dsimp only
  split
  · exact .bind (.any _) fun settings _ => .pure ⟨settings, rfl⟩
  · exact .bind (.any _) fun settings _ => .pure ⟨settings, rfl⟩

@[simp] theorem documents_stop (server : Server) : server.stop.documents = server.documents := by
  rw [stop]
  split <;> rfl

/-- Requests leave the documents alone, whatever they do to the session. -/
theorem documents_answer (server : Server) (method : String) (params : Option Json) :
    Ensures (server.answer method params : StateM W (Except RequestError Json × Server))
      fun r => r.2.documents = server.documents := by
  have handled (server : Server) (request : ServerRequest) :
      Ensures (server.handle request : StateM W (Except RequestError Json × Server))
        fun r => r.2.documents = server.documents := by
    cases request with
    | start root encodings =>
      refine .bind (server.starts root encodings) ?_
      rintro started ⟨settings, rfl⟩
      exact .pure rfl
    | query uri query => exact .pure rfl
    | execute command arguments => exact .bind (.any _) fun r _ => .pure rfl
    | stop => exact .pure rfl
  have stopped : (if method = ServerRequest.stopMethod then server.stop else server).documents =
      server.documents := by
    split
    · exact server.documents_stop
    · rfl
  rw [answer]
  split
  · exact .pure rfl
  split
  · exact .pure rfl
  split
  · exact .pure rfl
  split
  · exact .pure rfl
  dsimp only
  rw [← stopped]
  split
  · exact .pure rfl
  · exact handled _ _

/-- What a request leaves as it is once a server was started, and whether it stops the server. -/
structure Answered (server : Server) (method : String) (server' : Server) : Prop where
  settings : server'.settings = server.settings
  encoding : server'.encoding = server.encoding
  phase : server'.phase =
    if server.phase = .running ∧ method = ServerRequest.stopMethod then .stopped else server.phase

theorem answered (server : Server) (started : server.phase ≠ .idle) (method : String)
    (params : Option Json) :
    Ensures (server.answer method params : StateM W (Except RequestError Json × Server))
      fun r => server.Answered method r.2 := by
  have kept (going : ¬ (server.phase = .running ∧ method = ServerRequest.stopMethod)) :
      server.Answered method server := ⟨rfl, rfl, by rw [if_neg going]⟩
  rw [answer]
  split
  · next withdraws =>
    apply Ensures.pure
    apply kept
    rintro ⟨-, rfl⟩
    revert withdraws
    decide
  split
  · next notice =>
    apply Ensures.pure
    apply kept
    rintro ⟨-, rfl⟩
    revert notice
    decide
  split
  · next unknown =>
    apply Ensures.pure
    apply kept
    rintro ⟨-, rfl⟩
    revert unknown
    decide
  split
  · next refused =>
    apply Ensures.pure
    apply kept
    rintro ⟨running, rfl⟩
    rw [running] at refused
    cases refused
  next allowed =>
  have running : server.phase = .running ∧ method ≠ ServerRequest.startMethod := by
    revert allowed started
    cases server.phase <;> cases same : method == ServerRequest.startMethod <;>
      simp_all [Phase.refusal?]
  have after : server.Answered method
      (if method = ServerRequest.stopMethod then server.stop else server) := by
    split
    · next stops =>
      rw [stop, if_pos running.1]
      exact ⟨rfl, rfl, by rw [if_pos ⟨running.1, stops⟩]⟩
    · next going => exact kept fun both => going both.2
  dsimp only
  split
  · exact .pure after
  · next request read =>
    cases request with
    | start root encodings => exact absurd (ServerRequest.method_of_read_start read) running.2
    | query uri query => exact .pure after
    | execute command arguments =>
      exact .bind (.any _) fun r _ => .pure ⟨after.settings, after.encoding, after.phase⟩
    | stop => exact .pure after

end Requests

theorem publications_notice (server : Server) (uri : Uri) (event : DocumentEvent) :
    Reply.publications { announcements := (server.notice (.document uri event)).1 } =
      (server.record uri event).1.toList := by
  rw [notice]
  obtain ⟨publication?, after⟩ := server.record uri event
  cases publication? <;> rfl

theorem step_take (server : Server) (started : server.phase ≠ .idle) {message : ClientMessage}
    (notice : message.isRequest = false) (goes : message.method ≠ ServerNotice.exitMethod) :
    server.Step message { announcements := (server.take message.method message.params).1 }
      (server.take message.method message.params).2 := by
  have ends : message.endsService = (message.method == ServerRequest.stopMethod) := by
    rw [ClientMessage.endsService, beq_false_of_ne goes, Bool.or_false]
  have event : message.event? = match ServerNotice.read? message.method message.params with
      | some (.document uri event) => some (uri, event)
      | _ => none := by
    rw [ClientMessage.event?, if_neg (by simp [notice])]
  rw [take]
  split
  · next running =>
    split
    · next stops =>
      have deaf : server.hears? message = none := by simp [hears?, ends, stops]
      rw [stop, if_pos running]
      exact ⟨rfl, rfl, by simp, by simp [ends, stops], by rw [deaf], by rw [deaf]; rfl⟩
    · next going =>
      have hears : server.hears? message = message.event? := by simp [hears?, running, ends, going]
      have same : server.phase = .running ↔ server.phase = .running ∧ message.endsService = false := by
        simp [ends, going]
      rw [event] at hears
      split
      · next unread =>
        rw [unread] at hears
        exact ⟨rfl, rfl, started, same, by rw [hears], by rw [hears]; rfl⟩
      · next notice read =>
        rw [read] at hears
        cases notice with
        | ready =>
          dsimp only at hears
          exact ⟨rfl, rfl, started, same, by rw [hears]; rfl, by rw [hears]; rfl⟩
        | document uri event =>
          dsimp only at hears
          have after : (server.notice (.document uri event)).2 =
            { server with documents := server.documents.record uri event } :=
            server.record_snd uri event
          rw [after]
          exact ⟨rfl, rfl, started, same, by rw [hears],
            by rw [hears]; exact server.publications_notice uri event⟩
  · next quiet =>
    have deaf : server.hears? message = none := by simp [hears?, quiet]
    exact ⟨rfl, rfl, started, by simp [quiet], by rw [deaf], by rw [deaf]; rfl⟩

/-- Every message to a server that was started is a step. -/
theorem step_receive (server : Server) (started : server.phase ≠ .idle) (message : ClientMessage) :
    Ensures (server.receive message : StateM W (Reply × Server))
      fun r => server.Step message r.1 r.2 := by
  rw [receive]
  split
  · next exited =>
    have deaf : server.hears? message = none := by simp [hears?, exited]
    exact .pure ⟨rfl, rfl, started, by simp [exited], by rw [deaf], by rw [deaf]; rfl⟩
  split
  · next exits =>
    have deaf : server.hears? message = none := by simp [hears?, ClientMessage.endsService, exits]
    exact .pure ⟨rfl, rfl, by simp, by simp [ClientMessage.endsService, exits], by rw [deaf],
      by rw [deaf]; rfl⟩
  next goes =>
  split
  · next request =>
    have deaf : server.hears? message = none := by simp [hears?, ClientMessage.event?, request]
    have ends : message.endsService = (message.method == ServerRequest.stopMethod) := by
      rw [ClientMessage.endsService, beq_false_of_ne goes, Bool.or_false]
    have both := (server.answered started message.method message.params (W := W)).and
      (server.documents_answer message.method message.params)
    refine .bind both ?_
    rintro ⟨answer, server'⟩ ⟨after, documents⟩
    refine .pure ⟨after.settings, after.encoding, ?_, ?_, by rw [deaf]; exact documents,
      by rw [deaf]; rfl⟩
    · change server'.phase ≠ .idle
      rw [after.phase]
      split
      · decide
      · exact started
    · change server'.phase = .running ↔ _
      rw [after.phase, ends]
      by_cases running : server.phase = .running
      · by_cases stops : message.method = ServerRequest.stopMethod
        · simp [running, stops]
        · simp [running, stops]
      · simp [running]
  · next notice =>
    exact .pure (server.step_take started (Bool.not_eq_true _ ▸ notice) goes)

section Runs

variable {server server' : Server} {message : ClientMessage} {reply : Reply}
  {events : List (Uri × DocumentEvent)} {publications : List Publication}

/-- A step keeps the relation between the documents and the publications. -/
theorem Reflects.step (reflects : server.Reflects events publications)
    (step : server.Step message reply server') :
    server'.Reflects (events ++ (server.hears? message).toList) (publications ++ reply.publications) := by
  have documents := step.documents
  have published := step.publications
  cases heard : server.hears? message with
  | none =>
    rw [heard] at documents published
    rw [published, Option.toList_none, List.append_nil, List.append_nil]
    exact reflects.congr step.settings step.encoding documents
  | some entry =>
    obtain ⟨uri, event⟩ := entry
    rw [heard] at documents published
    rw [published]
    have recorded := server.record_snd uri event
    refine (reflects.record uri event).congr ?_ ?_ ?_
    · rw [recorded, step.settings]
    · rw [recorded, step.encoding]
    · rw [recorded, documents]

/-- The events that a server hears of in messages. -/
def heard (server : Server) (messages : List ClientMessage) : List (Uri × DocumentEvent) :=
  if server.phase = .running then heardEvents messages else []

theorem Step.heard_cons (step : server.Step message reply server') (rest : List ClientMessage) :
    server.heard (message :: rest) = (server.hears? message).toList ++ server'.heard rest := by
  by_cases running : server.phase = .running
  · cases ends : message.endsService with
    | true =>
      have quiet : server'.phase ≠ .running := by simp [step.running, ends]
      simp [heard, hears?, running, quiet, heardEvents, ends]
    | false =>
      have still : server'.phase = .running := step.running.mpr ⟨running, ends⟩
      cases event : message.event? <;> simp [heard, hears?, running, still, heardEvents, ends, event]
  · have quiet : server'.phase ≠ .running := by simp [step.running, running]
    simp [heard, hears?, running, quiet]

/-- Whatever messages a started server receives, its documents and its publications reflect the events
that it heard of. -/
theorem Reflects.receiveAll (messages : List ClientMessage) (started : server.phase ≠ .idle)
    (reflects : server.Reflects events publications) :
    Ensures (server.receiveAll messages : StateM W (List Reply × Server)) fun r =>
      (r.2.settings = server.settings ∧ r.2.encoding = server.encoding) ∧
        r.2.Reflects (events ++ server.heard messages)
          (publications ++ r.1.flatMap Reply.publications) := by
  induction messages generalizing server events publications with
  | nil =>
    apply Ensures.pure
    simpa [heard, heardEvents] using reflects
  | cons message rest ih =>
    rw [Server.receiveAll]
    refine .bind (server.step_receive started message) ?_
    rintro ⟨reply, server'⟩ step
    refine .bind (ih step.started (reflects.step step)) ?_
    rintro ⟨replies, last⟩ ⟨⟨settings, encoding⟩, reflected⟩
    refine .pure ⟨⟨settings.trans step.settings, encoding.trans step.encoding⟩, ?_⟩
    rw [step.heard_cons, List.flatMap_cons, ← List.append_assoc, ← List.append_assoc]
    exact reflected

end Runs

/-- A request is answered without a word about documents. -/
theorem receive_request (server : Server) {message : ClientMessage} (request : message.isRequest = true) :
    Ensures (server.receive message : StateM W (Reply × Server))
      fun r => r.1.announcements = [] ∧ r.2.documents = server.documents := by
  rw [receive]
  split
  · exact .pure ⟨rfl, rfl⟩
  split
  · exact .pure ⟨rfl, rfl⟩
  refine .bind (server.documents_answer message.method message.params) ?_
  rintro ⟨answer, server'⟩ documents
  exact .pure ⟨rfl, documents⟩

/-- The request to start is granted to a fresh server. -/
theorem receive_start {message : ClientMessage} {root : Option Uri} {encodings : Option (List String)}
    (request : message.isRequest = true)
    (read : ServerRequest.read message.method message.params = .ok (.start root encodings)) :
    Ensures (({} : Server).receive message : StateM W (Reply × Server)) fun r =>
      ∃ settings, r.2 = { phase := .running, settings, encoding := .negotiate encodings } := by
  have method := ServerRequest.method_of_read_start read
  have answered : Ensures (({} : Server).answer message.method message.params :
      StateM W (Except RequestError Json × Server)) fun r =>
        ∃ settings, r.2 = { phase := .running, settings, encoding := .negotiate encodings } := by
    rw [answer, read, method, if_neg (by decide), if_neg (by decide), if_neg (by decide)]
    refine .bind (starts {} root encodings) ?_
    rintro started ⟨settings, rfl⟩
    exact .pure ⟨settings, rfl⟩
  rw [receive, if_neg (by decide), if_neg (by rw [method]; decide), if_pos request]
  refine .bind answered ?_
  rintro ⟨answer, started⟩ known
  exact .pure known

/-- Published diagnostics reflect the stored texts. After the start and any messages, a document has
the text that its history leaves it open with, what was published last for it are the diagnostics of
that text under the settings and in the negotiated encoding, and nothing if it is not open, and requests
have no part in either. -/
theorem publications_reflect_documents {start : ClientMessage} {root : Option Uri}
    {encodings : Option (List String)} (request : start.isRequest = true)
    (read : ServerRequest.read start.method start.params = .ok (.start root encodings))
    (messages : List ClientMessage) (files : W) :
    let started := (({} : Server).receive start : StateM W (Reply × Server)) files
    let ended := (started.1.2.receiveAll messages : StateM W (List Reply × Server)) started.2
    let documents := ended.1.2.documents
    let publications := ended.1.1.flatMap Reply.publications
    (∀ uri t, documents.get? uri = some t ↔
        LeavesOpen (historyOf uri (heardEvents messages)) t) ∧
      (∀ uri shown, lastShown? uri publications = some shown →
        shown = match documents.get? uri with
          | some t => (started.1.2.settings.apply (validate t)).map
              (ClientView.diagnostic ⟨.parse t, .negotiate encodings⟩ uri)
          | none => []) ∧
      (∀ uri t, documents.get? uri = some t → (lastShown? uri publications).isSome = true) ∧
      ∀ (server : Server) (message : ClientMessage) (files : W), message.isRequest = true →
        let received := ((server.receive message : StateM W (Reply × Server)) files).1
        received.1.announcements = [] ∧ received.2.documents = server.documents := by
  intro started ended documents publications
  obtain ⟨settings, known⟩ := receive_start request read files
  have running : started.1.2.phase = .running := congrArg Server.phase known
  have encoding : started.1.2.encoding = .negotiate encodings := congrArg Server.encoding known
  have fresh := reflects_nil (congrArg Server.documents known)
  obtain ⟨⟨sameSettings, sameEncoding⟩, reflects⟩ :=
    fresh.receiveAll messages (by rw [running]; decide) started.2
  rw [List.nil_append, List.nil_append, heard, if_pos running] at reflects
  have negotiated := sameEncoding.trans encoding
  refine ⟨fun uri t => ?_, fun uri shown told => ?_, fun uri t isOpen => ?_, ?_⟩
  · rw [← DocumentEvent.latest_eq_some_iff, ← reflects.documents uri]
  · rw [reflects.shown uri shown told]
    simp only [diagnosticsOf, check, sameSettings, negotiated]
    rfl
  · exact reflects.told uri (by rw [isOpen]; rfl)
  · exact fun server message files request => server.receive_request request files

/-- A change after a close, in which the last text counts, opens the document again; a save then
publishes its diagnostics, whatever is asked in between. -/
theorem change_after_close_published :
    let uri : Uri := ⟨"note".toList, none, "a".toList, none, none⟩
    let document := Json.object [("uri", .string "note:a"), ("version", .integer 1)]
    let start : ClientMessage := ⟨"initialize", some (.object [("capabilities", .object [])]), true⟩
    let messages : List ClientMessage :=
      [⟨"textDocument/didClose", some (.object [("textDocument", document)]), false⟩,
        ⟨"textDocument/didChange", some (.object [("textDocument", document), ("contentChanges",
          .array [.object [("text", .string "")], .object [("text", .string "stray")]])]), false⟩,
        ⟨"workspace/executeCommand", some (.object [("command", .string "leafconf.saveFile"),
          ("arguments", .array [.string "x"])]), true⟩,
        ⟨"textDocument/didSave", some (.object [("textDocument", document)]), false⟩]
    let files : FileTree := ⟨.directory [], []⟩
    let started := (({} : Server).receive start : StateM FileTree (Reply × Server)) files
    let ended := (started.1.2.receiveAll messages : StateM FileTree (List Reply × Server)) started.2
    ended.1.2.documents.get? uri = some "stray".toList ∧
      lastShown? uri (ended.1.1.flatMap Reply.publications) =
        some [⟨⟨⟨0, 0⟩, ⟨0, 5⟩⟩, .error, some "LC001", "Content does not belong to any section.", [], none⟩,
          ⟨⟨⟨0, 0⟩, ⟨0, 0⟩⟩, .warning, some "LC412", "A \"FINAL\" rule is missing.", [], none⟩] := by
  intro uri document start messages files started ended
  have request : start.isRequest = true := rfl
  have read : ServerRequest.read start.method start.params = .ok (.start none none) := rfl
  obtain ⟨stored, shown, told, -⟩ :=
    publications_reflect_documents (W := FileTree) request read messages files
  have heard : heardEvents messages =
      [(uri, .closed), (uri, .changed ["".toList, "stray".toList]), (uri, .saved none)] := by
    decide +kernel
  have quiet : ∀ e ∈ [DocumentEvent.saved none], e ≠ .closed ∧ ∀ t, ¬ e.Carries t := by
    intro e member
    rw [List.mem_singleton.mp member]
    refine ⟨by decide, fun t carries => ?_⟩
    cases carries
  have isOpen := (stored uri "stray".toList).mpr
    ⟨[.closed], .changed ["".toList, "stray".toList], [.saved none], by rw [heard]; decide +kernel,
      .changed ["".toList], quiet⟩
  obtain ⟨last, known⟩ := Option.isSome_iff_exists.mp (told uri _ isOpen)
  refine ⟨isOpen, ?_⟩
  rw [known, shown uri last known, isOpen]
  decide +kernel

end Server

end ProxyConfig

import ChangeImpact.Proofs.Server.Framing
import ChangeImpact.Proofs.Server.Survival
import Mathlib.Data.List.Forall2

/-!
# Requests and replies

A message with an id is a request. For messages of the right shape, whose tools have no faults but
those that clients are told of, a session sends one reply for each request and in the order of the
requests. `Comes` lists what a request comes to, case by case, and `Answers` is what a client can
rely on in a reply: it echoes the id, it has a result or an error, the code of the error says
what is unknown, and a tool that failed is told from one that returned.
-/

namespace ChangeImpact.Server

open Json (Fields Fits IsPlain)
open Text.Utf8 (Bytes)

def methods : List String := ["initialize", "tools/list", "tools/call", "ping"]

def Asks (message : Fields) : Prop := idOf message ≠ .null

instance (message : Fields) : Decidable (Asks message) :=
  match h : idOf message with
  | .null => isFalse fun hne => hne h
  | .bool _ | .int _ | .real _ | .text _ | .list _ | .object _ =>
    isTrue fun hnull => nomatch h.symm.trans hnull

def Calls (message params : Fields) : Prop :=
  (methodOf message).string? = some "tools/call" ∧ paramsOf message = .object params

def toolFor? (params : Fields) : Option Tool := (toolOf params).string?.bind tool?

def Uses (message : Fields) (tool : Tool) (arguments : Json) : Prop :=
  ∃ params, Calls message params ∧ toolFor? params = some tool ∧ argumentsOf params = arguments

def CallsUnknown (message : Fields) : Prop :=
  ∃ params, Calls message params ∧ toolFor? params = none

/-- Method and tool name are texts, parameters and client are objects, and a tool that fails has
a fault that is told. -/
structure WellShaped (host : Host) (message : Fields) : Prop where
  method : ∃ s, methodOf message = .text s
  params : ∃ params, paramsOf message = .object params
  client : (methodOf message).string? = some "initialize" →
    ∀ params, paramsOf message = .object params → IsObject (clientOf params)
  name : ∀ params, Calls message params → ∃ s, toolOf params = .text s
  told : ∀ tool arguments, Uses message tool arguments →
    ∀ e, Gives (tool host arguments).run (.error e) → e.isTold = true

inductive Comes (host : Host) (message : Fields) : Outcome → Prop
  | introduction (asked : (methodOf message).string? = some "initialize") :
      Comes host message (.ok initialized)
  | tools (asked : (methodOf message).string? = some "tools/list") :
      Comes host message (.ok (.object [("tools", listings)]))
  | ping (asked : (methodOf message).string? = some "ping") :
      Comes host message (.ok (.object []))
  | returned {tool : Tool} {arguments : Json} {text : LooseText}
      (uses : Uses message tool arguments) (gives : Gives (tool host arguments).run (.ok text)) :
      Comes host message (.ok (toolResult text false))
  | failed {tool : Tool} {arguments : Json} {e : ToolFault} (uses : Uses message tool arguments)
      (gives : Gives (tool host arguments).run (.error e)) :
      Comes host message (.ok (toolResult (.ofString "Error: " ++ e.message) true))
  | unknownTool {params : Fields} (calls : Calls message params) (unknown : toolFor? params = none) :
      Comes host message (.error (.unknownTool (toolOf params)))
  | unknownMethod (unknown : ∀ name ∈ methods, (methodOf message).string? ≠ some name) :
      Comes host message (.error (.unknownMethod (methodOf message)))

section Dispatch

variable {host : Host} {message : Fields}

theorem gives_asName {v : Json} (h : ∃ s, v = .text s) :
    Gives (liftM (asName v) : Serving Json).run (.ok v) := by
  obtain ⟨s, rfl⟩ := h
  exact Gives.lift_of_eq rfl

theorem callTool_comes (h : WellShaped host message) {params : Fields}
    (calls : Calls message params) :
    ∃ r, Gives (callTool host (.object params)).run r ∧
      ∃ outcome, r = .ok outcome ∧ Comes host message outcome := by
  unfold callTool
  refine (Gives.lift _).exists_bind_ok ((gives_asName (h.name params calls)).exists_bind_ok ?_)
  cases htool : (toolOf params).string?.bind tool? with
  | none => exact ⟨_, Gives.pure _, _, rfl, .unknownTool calls htool⟩
  | some tool =>
    have huses : Uses message tool (argumentsOf params) := ⟨params, calls, htool, rfl⟩
    obtain ⟨name, -, hsome⟩ := Option.bind_eq_some_iff.mp htool
    obtain ⟨r, hr, -⟩ := tool_gives host hsome (argumentsOf params)
    refine (Gives.lift _).exists_bind_ok (hr.ok.exists_bind_ok ?_)
    cases r with
    | ok text => exact ⟨_, Gives.pure _, _, rfl, .returned huses hr⟩
    | error e =>
      simp only [h.told tool _ huses e hr, if_true]
      exact ⟨_, Gives.pure _, _, rfl, .failed huses hr⟩

theorem introduce_object {params : Fields} (h : IsObject (clientOf params)) :
    introduce (.object params) = .ok initialized := by
  obtain ⟨client, hclient⟩ := (not_isObject_or (clientOf params)).resolve_left fun hnot => hnot h
  have hsame : orEmpty (Fields.named? params "clientInfo") = .object client := hclient
  simp only [introduce, field, bind, Except.bind, hsame]
  rfl

theorem notice_object (method : Json) (params : Fields) : notice method (.object params) = .ok () := by
  unfold notice
  split <;> rfl

theorem dispatch_comes (h : WellShaped host message) :
    ∃ r, Gives (dispatch host (methodOf message) (paramsOf message)).run r ∧
      ∃ outcome, r = .ok outcome ∧ Comes host message outcome := by
  obtain ⟨params, hparams⟩ := h.params
  unfold dispatch
  refine (gives_asName h.method).exists_bind_ok ?_
  split
  next hs =>
    rw [hparams, introduce_object (h.client hs params hparams)]
    exact ⟨_, Gives.pure _, _, rfl, .introduction hs⟩
  next hs => exact ⟨_, Gives.pure _, _, rfl, .tools hs⟩
  next hs =>
    rw [hparams]
    exact callTool_comes h ⟨hs, hparams⟩
  next hs => exact ⟨_, Gives.pure _, _, rfl, .ping hs⟩
  next hinit hlist hcall hping =>
    refine ⟨_, Gives.pure _, _, rfl, .unknownMethod ?_⟩
    simp only [methods, List.forall_mem_cons]
    exact ⟨hinit, hlist, hcall, hping, List.forall_mem_nil _⟩

theorem handle_reply (hid : Asks message) {outcome : Outcome}
    (h : Gives (dispatch host (methodOf message) (paramsOf message)).run (.ok outcome)) :
    Gives (handle host (.object message)).run (.ok (some (reply (idOf message) outcome))) := by
  unfold handle
  refine (Gives.lift _).bind_ok ((Gives.lift _).bind_ok ((Gives.lift _).bind_ok ?_))
  split
  next hnull => exact absurd hnull hid
  next id _ => exact h.bind_ok (Gives.pure _)

theorem handle_notice (hid : ¬Asks message) (h : WellShaped host message) :
    Gives (handle host (.object message)).run (.ok none) := by
  obtain ⟨params, hparams⟩ := h.params
  unfold handle
  refine (Gives.lift _).bind_ok ((Gives.lift _).bind_ok ((Gives.lift _).bind_ok ?_))
  split
  next hnull =>
    have hnotice := notice_object (methodOf message) params
    rw [← hparams] at hnotice
    exact (Gives.lift_of_eq hnotice).bind_ok (Gives.pure _)
  next id hne => exact absurd (fun hnull => hne hnull) hid

end Dispatch

section Outcomes

variable {host : Host} {message : Fields} {outcome : Outcome}

theorem Calls.unique {params params' : Fields} (h : Calls message params)
    (h' : Calls message params') : params = params' :=
  Json.object.inj (h.2.symm.trans h'.2)

theorem not_calls {name : String} (asked : (methodOf message).string? = some name)
    (hne : name ≠ "tools/call") (params : Fields) : ¬Calls message params := by
  intro calls
  exact hne (Option.some.inj (asked.symm.trans calls.1))

theorem Comes.unknownTool_of_callsUnknown (h : Comes host message outcome)
    (calls : CallsUnknown message) : ∃ name, outcome = .error (.unknownTool name) := by
  obtain ⟨params, calls, unknown⟩ := calls
  cases h with
  | introduction asked => exact absurd calls (not_calls asked (by decide) params)
  | tools asked => exact absurd calls (not_calls asked (by decide) params)
  | ping asked => exact absurd calls (not_calls asked (by decide) params)
  | returned uses gives =>
    obtain ⟨params', calls', known, -⟩ := uses
    obtain rfl := calls.unique calls'
    cases unknown.symm.trans known
  | failed uses gives =>
    obtain ⟨params', calls', known, -⟩ := uses
    obtain rfl := calls.unique calls'
    cases unknown.symm.trans known
  | unknownTool calls' unknown' => exact ⟨_, rfl⟩
  | unknownMethod unknown' => exact absurd calls.1 (unknown' _ (by decide))

theorem Comes.callsUnknown {name : Json} (h : Comes host message (.error (.unknownTool name))) :
    CallsUnknown message := by
  cases h with
  | unknownTool calls unknown => exact ⟨_, calls, unknown⟩

theorem Comes.unknownMethod_of_unknown (h : Comes host message outcome)
    (unknown : ∀ name ∈ methods, (methodOf message).string? ≠ some name) :
    ∃ name, outcome = .error (.unknownMethod name) := by
  cases h with
  | introduction asked => exact absurd asked (unknown _ (by decide))
  | tools asked => exact absurd asked (unknown _ (by decide))
  | ping asked => exact absurd asked (unknown _ (by decide))
  | returned uses gives =>
    obtain ⟨params, calls, -⟩ := uses
    exact absurd calls.1 (unknown _ (by decide))
  | failed uses gives =>
    obtain ⟨params, calls, -⟩ := uses
    exact absurd calls.1 (unknown _ (by decide))
  | unknownTool calls unknown' => exact absurd calls.1 (unknown _ (by decide))
  | unknownMethod unknown' => exact ⟨_, rfl⟩

theorem Comes.unknown {name : Json} (h : Comes host message (.error (.unknownMethod name))) :
    ∀ name ∈ methods, (methodOf message).string? ≠ some name := by
  cases h with
  | unknownMethod unknown => exact unknown

theorem Uses.unique {tool tool' : Tool} {arguments arguments' : Json}
    (h : Uses message tool arguments) (h' : Uses message tool' arguments') :
    tool = tool' ∧ arguments = arguments' := by
  obtain ⟨params, calls, known, harguments⟩ := h
  obtain ⟨params', calls', known', harguments'⟩ := h'
  obtain rfl := calls.unique calls'
  exact ⟨Option.some.inj (known.symm.trans known'), harguments.symm.trans harguments'⟩

def toolAnswer : Except ToolFault LooseText → Json
  | .ok text => toolResult text false
  | .error e => toolResult (.ofString "Error: " ++ e.message) true

theorem Comes.eq_of_uses {tool : Tool} {arguments : Json} {r : Except ToolFault LooseText}
    (h : Comes host message outcome) (uses : Uses message tool arguments)
    (gives : Gives (tool host arguments).run r) :
    outcome = .ok (toolAnswer r) := by
  have huses := uses
  obtain ⟨params, calls, known, -⟩ := uses
  cases h with
  | introduction asked => exact absurd calls (not_calls asked (by decide) params)
  | tools asked => exact absurd calls (not_calls asked (by decide) params)
  | ping asked => exact absurd calls (not_calls asked (by decide) params)
  | returned uses' gives' =>
    obtain ⟨rfl, rfl⟩ := huses.unique uses'
    rw [← gives'.unique gives, toolAnswer]
  | failed uses' gives' =>
    obtain ⟨rfl, rfl⟩ := huses.unique uses'
    rw [← gives'.unique gives, toolAnswer]
  | unknownTool calls' unknown =>
    obtain rfl := calls.unique calls'
    cases unknown.symm.trans known
  | unknownMethod unknown => exact absurd calls.1 (unknown _ (by decide))

theorem Comes.failed_of_isError {result : Json} (h : Comes host message (.ok result))
    (hfailed : result.field? "isError" = some (.bool true)) :
    ∃ tool arguments e, Uses message tool arguments ∧ Gives (tool host arguments).run (.error e) := by
  cases h with
  | introduction asked => cases hfailed
  | tools asked => cases hfailed
  | ping asked => cases hfailed
  | returned uses gives => cases hfailed
  | failed uses gives => exact ⟨_, _, _, uses, gives⟩

end Outcomes

section Replies

def codeOf? (answer : Json) : Option Json := (answer.field? "error").bind (Json.field? "code")

def SaysFailed (answer : Json) : Prop :=
  ∃ result, answer.field? "result" = some result ∧ result.field? "isError" = some (.bool true)

section Fields

variable (id : Json)

theorem reply_id (outcome : Outcome) : (reply id outcome).field? "id" = some id := rfl

theorem reply_result (outcome : Outcome) :
    (reply id outcome).field? "result" = outcome.toOption := by
  cases outcome <;> rfl

theorem reply_error_isSome (outcome : Outcome) :
    ((reply id outcome).field? "error").isSome = outcome.toOption.isNone := by
  cases outcome <;> rfl

theorem codeOf?_reply_error (e : RpcError) : codeOf? (reply id (.error e)) = some (.int e.code) :=
  rfl

theorem codeOf?_reply_eq {outcome : Outcome} {n : Int} :
    codeOf? (reply id outcome) = some (.int n) ↔ ∃ e, outcome = .error e ∧ e.code = n := by
  cases outcome with
  | ok result =>
    have hnone : codeOf? (reply id (.ok result)) = none := rfl
    simp [hnone]
  | error e => simp [codeOf?_reply_error]

end Fields

/-- What a client can rely on in the reply to its request. -/
structure Answers (host : Host) (message : Fields) (answer : Json) : Prop where
  id : answer.field? "id" = some (idOf message)
  either : (answer.field? "result").isSome ≠ (answer.field? "error").isSome
  code : (answer.field? "error").isSome = true →
    codeOf? answer = some (.int (-32602)) ∨ codeOf? answer = some (.int (-32601))
  unknownTool : codeOf? answer = some (.int (-32602)) ↔ CallsUnknown message
  unknownMethod : codeOf? answer = some (.int (-32601)) ↔
    ∀ name ∈ methods, (methodOf message).string? ≠ some name
  failed : SaysFailed answer ↔ ∃ tool arguments e, Uses message tool arguments ∧
    Gives (tool host arguments).run (.error e)
  gives : ∀ tool arguments r, Uses message tool arguments → Gives (tool host arguments).run r →
    answer.field? "result" = some (toolAnswer r)

theorem answers_reply {host : Host} {message : Fields} {outcome : Outcome}
    (h : Comes host message outcome) : Answers host message (reply (idOf message) outcome) where
  id := reply_id _ _
  either := by
    rw [reply_result, reply_error_isSome]
    cases outcome <;> simp [Except.toOption]
  code := by
    intro herror
    rw [reply_error_isSome] at herror
    cases outcome with
    | ok result => cases herror
    | error e => cases e with
      | unknownMethod name => exact .inr rfl
      | unknownTool name => exact .inl rfl
  unknownTool := by
    rw [codeOf?_reply_eq]
    constructor
    · intro hcode
      obtain ⟨e, rfl, hcode⟩ := hcode
      cases e with
      | unknownMethod name => cases hcode
      | unknownTool name => exact h.callsUnknown
    · intro calls
      obtain ⟨name, rfl⟩ := h.unknownTool_of_callsUnknown calls
      exact ⟨_, rfl, rfl⟩
  unknownMethod := by
    rw [codeOf?_reply_eq]
    constructor
    · intro hcode
      obtain ⟨e, rfl, hcode⟩ := hcode
      cases e with
      | unknownMethod name => exact h.unknown
      | unknownTool name => cases hcode
    · intro unknown
      obtain ⟨name, rfl⟩ := h.unknownMethod_of_unknown unknown
      exact ⟨_, rfl, rfl⟩
  failed := by
    rw [SaysFailed, reply_result]
    constructor
    · intro hfailed
      obtain ⟨result, hresult, hfailed⟩ := hfailed
      cases outcome with
      | ok result' =>
        obtain rfl := Option.some.inj hresult
        exact h.failed_of_isError hfailed
      | error e => cases hresult
    · intro hfailed
      obtain ⟨tool, arguments, e, uses, gives⟩ := hfailed
      rw [h.eq_of_uses uses gives]
      exact ⟨_, rfl, rfl⟩
  gives := by
    intro tool arguments r uses gives
    rw [reply_result, h.eq_of_uses uses gives]
    rfl

end Replies

section Sessions

variable {host : Host}

theorem handleAll_answers {messages : List Fields} (h : ∀ m ∈ messages, WellShaped host m) :
    ∃ replies, Gives (handleAll host (messages.map Json.object)) (replies, none) ∧
      List.Forall₂ (Answers host) (messages.filter Asks) replies := by
  induction messages with
  | nil => exact ⟨[], Gives.pure _, .nil⟩
  | cons message rest ih =>
    obtain ⟨hfirst, hrest⟩ := List.forall_mem_cons.mp h
    obtain ⟨replies, hgives, hanswers⟩ := ih hrest
    by_cases hid : Asks message
    · obtain ⟨r, hr, outcome, rfl, hcomes⟩ := dispatch_comes hfirst
      have hhandle := handle_reply hid hr
      refine ⟨reply (idOf message) outcome :: replies, handleAll_ok hhandle hgives, ?_⟩
      rw [List.filter_cons_of_pos (by simpa using hid)]
      exact .cons (answers_reply hcomes) hanswers
    · refine ⟨replies, handleAll_ok (handle_notice hid hfirst) hgives, ?_⟩
      rw [List.filter_cons_of_neg (by simpa using hid)]
      exact hanswers

theorem received_packets {nesting : Nat} {sent : List (Packet × Fields)}
    (framed : ∀ s ∈ sent, s.1.IsFramed)
    (read : ∀ s ∈ sent, Json.readBytes nesting s.1.body = .ok (.object s.2)) :
    Received nesting (sent.flatMap fun s => s.1.bytes) (sent.map fun s => .object s.2) [] := by
  induction sent with
  | nil => exact .none []
  | cons s r ih =>
    obtain ⟨hframed, hframes⟩ := List.forall_mem_cons.mp framed
    obtain ⟨hread, hreads⟩ := List.forall_mem_cons.mp read
    exact .packet hframed hread (ih hframes hreads)

/-- A session over packets that hold messages of the right shape writes the frames of its replies
and ends with the input. There is one reply for each request, in the order of the requests. -/
theorem serve_answers (host : Host) (sent : List (Packet × Fields))
    (framed : ∀ s ∈ sent, s.1.IsFramed)
    (read : ∀ s ∈ sent,
      Json.readBytes host.repository.machine.nesting s.1.body = .ok (.object s.2))
    (shaped : ∀ s ∈ sent, WellShaped host s.2) :
    ∃ replies, Gives (serve host (sent.flatMap fun s => s.1.bytes))
        (replies.flatMap frame, none) ∧
      List.Forall₂ (Answers host) ((sent.map Prod.snd).filter Asks) replies := by
  have hmessages : readMessages host.repository.machine.nesting
        (sent.flatMap fun s => s.1.bytes) = ((sent.map Prod.snd).map Json.object, false) := by
    rw [(received_packets framed read).readMessages
      (List.forall_mem_map.mpr fun s _ => Json.noConfusion), readMessages_nil, List.append_nil,
      List.map_map]
    rfl
  obtain ⟨replies, hgives, hanswers⟩ := handleAll_answers (List.forall_mem_map.mpr shaped)
  refine ⟨replies, ?_, hanswers⟩
  rw [serve, hmessages]
  exact hgives.bind (Gives.pure _)

def pathlessParams : Fields := [("name", .text "dependents_of")]

def pathlessCall : Fields :=
  [("id", .text "2"), ("method", .text "tools/call"), ("params", .object pathlessParams)]

theorem isPlain_pathlessCall : IsPlain (.object pathlessCall) := by
  have hparams : IsPlain (.object pathlessParams) :=
    .object (by decide) (by decide) (List.forall_mem_singleton.mpr (.text (by decide)))
  exact .object (by decide) (by decide) (List.forall_mem_cons.mpr ⟨.text (by decide),
    List.forall_mem_cons.mpr ⟨.text (by decide), List.forall_mem_singleton.mpr hparams⟩⟩)

theorem isWithin_pathlessCall (m : Machine) :
    (Envelope.written pathlessCall isPlain_pathlessCall).IsWithin m.nesting := by
  have hroom : 0 < m.nesting - 1 :=
    Nat.sub_pos_of_lt (Nat.lt_of_lt_of_le (by decide) m.sixteen_le_nesting)
  have hparams : Fits (.lenient m.nesting) (m.nesting - 1) (.object pathlessParams) :=
    Json.fits_object_cons.mpr ⟨hroom, List.forall_mem_singleton.mpr (.text _)⟩
  exact Envelope.isWithin_of_short _ (by decide +kernel) (Json.fits_object_cons.mpr
    ⟨m.nesting_pos, List.forall_mem_cons.mpr
      ⟨.text _, List.forall_mem_cons.mpr ⟨.text _, List.forall_mem_singleton.mpr hparams⟩⟩⟩)

theorem wellShaped_ping : WellShaped emptyHost ping where
  method := ⟨_, rfl⟩
  params := ⟨_, rfl⟩
  client := fun asked => absurd asked (by decide)
  name := fun _ calls => absurd calls.1 (by decide)
  told := fun _ _ uses => absurd uses.choose_spec.1.1 (by decide)

theorem pathlessCall_fails {host : Host} {tool : Tool} {arguments : Json} {e : ToolFault}
    (uses : Uses pathlessCall tool arguments) (gives : Gives (tool host arguments).run (.error e)) :
    e = .argument (.missing "path") := by
  obtain ⟨params, calls, known, harguments⟩ := uses
  obtain rfl : pathlessParams = params := Json.object.inj calls.2
  obtain rfl : (fun host v => dependentsText host v : Tool) = tool := Option.some.inj known
  obtain rfl : Json.object [] = arguments := harguments
  have hfails : dependentsText host (.object []) = .error (.argument (.missing "path")) := rfl
  exact Except.error.inj (gives.unique (Gives.lift_of_eq hfails))

theorem wellShaped_pathlessCall : WellShaped emptyHost pathlessCall where
  method := ⟨_, rfl⟩
  params := ⟨_, rfl⟩
  client := fun asked => absurd asked (by decide)
  name := by
    intro params calls
    obtain rfl : pathlessParams = params := Json.object.inj calls.2
    exact ⟨_, rfl⟩
  told := by
    intro tool arguments uses e gives
    rw [pathlessCall_fails uses gives]
    rfl

theorem serve_answers_pathlessCall : ∃ replies,
    Gives (serve emptyHost ((Packet.written ping).bytes ++ (Packet.written pathlessCall).bytes))
      (replies.flatMap frame, none) ∧
    List.Forall₂ (Answers emptyHost) [ping, pathlessCall] replies := by
  have hping := isWithin_ping emptyHost.repository.machine.nesting_pos
  have hcall := isWithin_pathlessCall emptyHost.repository.machine
  have hanswers := serve_answers emptyHost
    [(.written ping, ping), (.written pathlessCall, pathlessCall)]
    (List.forall_mem_cons.mpr ⟨Packet.isFramed_of_isWithin hping,
      List.forall_mem_singleton.mpr (Packet.isFramed_of_isWithin hcall)⟩)
    (List.forall_mem_cons.mpr ⟨Packet.readBytes_of_isWithin hping,
      List.forall_mem_singleton.mpr (Packet.readBytes_of_isWithin hcall)⟩)
    (List.forall_mem_cons.mpr ⟨wellShaped_ping,
      List.forall_mem_singleton.mpr wellShaped_pathlessCall⟩)
  have hasks : [ping, pathlessCall].filter Asks = [ping, pathlessCall] :=
    List.filter_eq_self.mpr (by decide)
  simp only [List.map_cons, List.map_nil, hasks, List.flatMap_cons, List.flatMap_nil,
    List.append_nil] at hanswers
  exact hanswers

end Sessions

end ChangeImpact.Server

import ChangeImpact.Proofs.Server.Untold
import ChangeImpact.Server.Session

/-!
# Messages that a session survives

A session answers its messages one after the other and ends at the first that breaks it down.
`Fatal` spells out which messages do so and how: those that are no objects or hold, where an
object or a name is asked for, a value of another kind, and calls whose tool has a fault that is
not told. `survives_iff` says that every other message is answered or noted and that the session
then goes on with the next one.
-/

namespace ChangeImpact.Server

open Json (Fields)

def IsObject : Json → Prop
  | .object _ => True
  | _ => False

def IsCompound : Json → Prop
  | .list _ => True
  | .object _ => True
  | _ => False

def methodOf (message : Fields) : Json := (Fields.named? message "method").getD (.text "")

def paramsOf (message : Fields) : Json := orEmpty (Fields.named? message "params")

def idOf (message : Fields) : Json := (Fields.named? message "id").getD .null

def clientOf (params : Fields) : Json := orEmpty (Fields.named? params "clientInfo")

def toolOf (params : Fields) : Json := (Fields.named? params "name").getD (.text "")

def argumentsOf (params : Fields) : Json := orEmpty (Fields.named? params "arguments")

inductive FatalCall (host : Host) : Json → Breakdown → Prop
  | params {params : Json} (shape : ¬IsObject params) : FatalCall host params .notAnObject
  | name {params : Fields} (shape : IsCompound (toolOf params)) :
      FatalCall host (.object params) .notAName
  | dependents {params : Fields} {e : ToolFault}
      (tool : (toolOf params).string? = some "dependents_of")
      (untold : DependentsUntold host (argumentsOf params) e) :
      FatalCall host (.object params) (.tool e)
  | analysis {params : Fields} {e : ToolFault}
      (tool : (toolOf params).string? = some "analyze_pr")
      (untold : AnalysisUntold host (argumentsOf params) e) :
      FatalCall host (.object params) (.tool e)

inductive FatalRequest (host : Host) (method : Json) : Json → Breakdown → Prop
  | method {params : Json} (shape : IsCompound method) : FatalRequest host method params .notAName
  | introduction {params : Json} (asked : method.string? = some "initialize")
      (shape : ¬IsObject params) : FatalRequest host method params .notAnObject
  | client {params : Fields} (asked : method.string? = some "initialize")
      (shape : ¬IsObject (clientOf params)) :
      FatalRequest host method (.object params) .notAnObject
  | call {params : Json} {b : Breakdown} (asked : method.string? = some "tools/call")
      (fatal : FatalCall host params b) : FatalRequest host method params b

/-- How a message breaks a session down. -/
inductive Fatal (host : Host) : Json → Breakdown → Prop
  | message {message : Json} (shape : ¬IsObject message) : Fatal host message .notAnObject
  | notification {message : Fields} (unasked : idOf message = .null)
      (cancels : (methodOf message).string? = some "notifications/cancelled")
      (shape : ¬IsObject (paramsOf message)) : Fatal host (.object message) .notAnObject
  | request {message : Fields} {b : Breakdown} (asked : idOf message ≠ .null)
      (fatal : FatalRequest host (methodOf message) (paramsOf message) b) :
      Fatal host (.object message) b

theorem field_of_not_isObject {v : Json} (h : ¬IsObject v) (name : String) :
    field v name = .error .notAnObject := by
  cases v with
  | object fields => exact absurd trivial h
  | _ => rfl

theorem field_eq_error {v : Json} {name : String} {b : Breakdown} :
    field v name = .error b ↔ b = .notAnObject ∧ ¬IsObject v := by
  cases v with
  | object fields => simp [field, IsObject]
  | _ => simp [field, IsObject, eq_comm]

theorem field_eq_ok {v : Json} {name : String} {found : Option Json} :
    field v name = .ok found ↔
      ∃ fields, v = .object fields ∧ Fields.named? fields name = found := by
  cases v with
  | object fields => simp [field]
  | _ => simp [field]

theorem not_isObject_or (v : Json) : ¬IsObject v ∨ ∃ fields, v = .object fields := by
  cases v with
  | object fields => exact .inr ⟨fields, rfl⟩
  | _ => exact .inl id

theorem asName_of_isCompound {v : Json} (h : IsCompound v) : asName v = .error .notAName := by
  cases v with
  | list xs => rfl
  | object fields => rfl
  | _ => cases h

theorem asName_of_not_isCompound {v : Json} (h : ¬IsCompound v) : asName v = .ok v := by
  cases v with
  | list xs => exact absurd trivial h
  | object fields => exact absurd trivial h
  | _ => rfl

theorem string?_of_isCompound {v : Json} (h : IsCompound v) : v.string? = none := by
  cases v with
  | list xs => rfl
  | object fields => rfl
  | _ => cases h

theorem tool_gives (host : Host) {name : String} {tool : Tool} (h : tool? name = some tool)
    (arguments : Json) : ∃ r, Gives (tool host arguments).run r ∧
      ∀ e, (r = .error e ∧ e.isTold = false) ↔
        (name = "dependents_of" ∧ DependentsUntold host arguments e) ∨
          (name = "analyze_pr" ∧ AnalysisUntold host arguments e) := by
  unfold tool? at h
  split at h
  next hname =>
    obtain rfl := Option.some.inj h
    obtain ⟨r, hr, hiff⟩ := analysisText_gives host arguments
    have hname : name = "analyze_pr" := by simpa using hname
    exact ⟨r, hr, fun e => by simp [hiff, hname]⟩
  next =>
    split at h
    next hname =>
      obtain rfl := Option.some.inj h
      have hname : name = "dependents_of" := by simpa using hname
      exact ⟨_, Gives.lift _, fun e => by simp [dependentsText_untold_iff, hname]⟩
    next => cases h

theorem tool?_eq_none {name : String} (h : tool? name = none) :
    name ≠ "dependents_of" ∧ name ≠ "analyze_pr" := by
  constructor <;> rintro rfl <;> simp [tool?] at h

theorem fatalCall_of_not_isObject {host : Host} {params : Json} {b : Breakdown}
    (h : ¬IsObject params) : FatalCall host params b ↔ b = .notAnObject := by
  constructor
  · rintro (_ | _ | _ | _)
    · rfl
    all_goals exact absurd trivial h
  · rintro rfl
    exact .params h

theorem fatalCall_of_isCompound {host : Host} {params : Fields} {b : Breakdown}
    (h : IsCompound (toolOf params)) : FatalCall host (.object params) b ↔ b = .notAName := by
  have hnone := string?_of_isCompound h
  constructor
  · rintro (hshape | _ | ⟨htool, -⟩ | ⟨htool, -⟩)
    · exact absurd trivial hshape
    · rfl
    · cases hnone.symm.trans htool
    · cases hnone.symm.trans htool
  · rintro rfl
    exact .name h

theorem not_fatalCall_of_unknown {host : Host} {params : Fields}
    (hname : ¬IsCompound (toolOf params)) (htool : (toolOf params).string?.bind tool? = none)
    (b : Breakdown) : ¬FatalCall host (.object params) b := by
  rintro (hshape | hshape | ⟨hs, -⟩ | ⟨hs, -⟩)
  · exact hshape trivial
  · exact hname hshape
  · rw [hs] at htool
    exact (tool?_eq_none htool).1 rfl
  · rw [hs] at htool
    exact (tool?_eq_none htool).2 rfl

theorem fatalCall_of_name {host : Host} {params : Fields} {name : String} {b : Breakdown}
    (hs : (toolOf params).string? = some name) : FatalCall host (.object params) b ↔
      ∃ e, b = .tool e ∧
        ((name = "dependents_of" ∧ DependentsUntold host (argumentsOf params) e) ∨
          (name = "analyze_pr" ∧ AnalysisUntold host (argumentsOf params) e)) := by
  constructor
  · rintro (hshape | hshape | ⟨htool, huntold⟩ | ⟨htool, huntold⟩)
    · exact absurd trivial hshape
    · cases (string?_of_isCompound hshape).symm.trans hs
    · exact ⟨_, rfl, .inl ⟨Option.some.inj (hs.symm.trans htool), huntold⟩⟩
    · exact ⟨_, rfl, .inr ⟨Option.some.inj (hs.symm.trans htool), huntold⟩⟩
  · rintro ⟨e, rfl, ⟨rfl, huntold⟩ | ⟨rfl, huntold⟩⟩
    · exact .dependents hs huntold
    · exact .analysis hs huntold

theorem answer_gives (r : Except ToolFault LooseText) :
    ∃ answer, Gives (match r with
      | .ok text => pure (.ok (toolResult text false))
      | .error e =>
        if e.isTold then pure (.ok (toolResult (.ofString "Error: " ++ e.message) true))
        else throw (.tool e) : Serving Outcome).run answer ∧
      ∀ b, answer = .error b ↔ ∃ e, b = .tool e ∧ r = .error e ∧ e.isTold = false := by
  cases r with
  | ok text => exact ⟨.ok (.ok (toolResult text false)), Gives.pure _, fun b => by simp⟩
  | error e =>
    cases htold : e.isTold with
    | true =>
      refine ⟨.ok (.ok (toolResult (.ofString "Error: " ++ e.message) true)), ?_, fun b => ?_⟩
      · simp only [htold, if_true]
        exact Gives.pure _
      · simp [htold]
    | false =>
      refine ⟨.error (.tool e), ?_, fun b => ?_⟩
      · simp only [htold]
        exact Gives.pure _
      · constructor
        · rintro ⟨⟩
          exact ⟨e, rfl, rfl, htold⟩
        · rintro ⟨_, rfl, ⟨⟩, -⟩
          rfl

theorem callTool_gives (host : Host) (params : Json) :
    ∃ r, Gives (callTool host params).run r ∧
      ∀ b, r = .error b ↔ FatalCall host params b := by
  unfold callTool
  rcases not_isObject_or params with hparams | ⟨fields, rfl⟩
  · refine ⟨.error .notAnObject, Gives.bind_error ?_, fun b => ?_⟩
    · exact Gives.lift_of_eq (field_of_not_isObject hparams "name")
    · rw [fatalCall_of_not_isObject hparams, Except.error.injEq, eq_comm]
  by_cases hname : IsCompound (toolOf fields)
  · refine ⟨.error .notAName, Gives.bind_ok (Gives.lift _) (Gives.bind_error ?_), fun b => ?_⟩
    · exact Gives.lift_of_eq (asName_of_isCompound hname)
    · rw [fatalCall_of_isCompound hname, Except.error.injEq, eq_comm]
  have hfirst : Gives (liftM (asName (toolOf fields)) : Serving Json).run (.ok (toolOf fields)) :=
    Gives.lift_of_eq (asName_of_not_isCompound hname)
  refine (Gives.lift _).exists_bind_ok (hfirst.exists_bind_ok ?_)
  cases htool : (toolOf fields).string?.bind tool? with
  | none =>
    refine ⟨.ok (.error (.unknownTool (toolOf fields))), Gives.pure _, fun b => ?_⟩
    simp [not_fatalCall_of_unknown hname htool b]
  | some tool =>
    obtain ⟨name, hs, hsome⟩ := Option.bind_eq_some_iff.mp htool
    obtain ⟨r, hr, hiff⟩ := tool_gives host hsome (argumentsOf fields)
    refine (Gives.lift _).exists_bind_ok (hr.ok.exists_bind_ok ?_)
    simp only [fatalCall_of_name hs, ← hiff]
    exact answer_gives r

theorem introduce_eq_error {params : Json} {b : Breakdown} :
    introduce params = .error b ↔ b = .notAnObject ∧
      (¬IsObject params ∨ ∃ fields, params = .object fields ∧ ¬IsObject (clientOf fields)) := by
  simp only [introduce, bind_eq_error, field_eq_error, field_eq_ok]
  constructor
  · rintro (⟨hb, h⟩ | ⟨client, ⟨fields, hfields, rfl⟩, ⟨hb, h⟩ | ⟨name, -, h⟩⟩)
    · exact ⟨hb, .inl h⟩
    · exact ⟨hb, .inr ⟨fields, hfields, h⟩⟩
    · cases h
  · rintro ⟨hb, h | ⟨fields, hfields, h⟩⟩
    · exact .inl ⟨hb, h⟩
    · exact .inr ⟨_, ⟨fields, hfields, rfl⟩, .inl ⟨hb, h⟩⟩

theorem fatalRequest_of_name {host : Host} {method params : Json} {name : String} {b : Breakdown}
    (hs : method.string? = some name) : FatalRequest host method params b ↔
      (name = "initialize" ∧ introduce params = .error b) ∨
        (name = "tools/call" ∧ FatalCall host params b) := by
  rw [introduce_eq_error]
  constructor
  · rintro (hshape | ⟨hasked, hshape⟩ | ⟨hasked, hshape⟩ | ⟨hasked, hfatal⟩)
    · cases (string?_of_isCompound hshape).symm.trans hs
    · exact .inl ⟨Option.some.inj (hs.symm.trans hasked), rfl, .inl hshape⟩
    · exact .inl ⟨Option.some.inj (hs.symm.trans hasked), rfl, .inr ⟨_, rfl, hshape⟩⟩
    · exact .inr ⟨Option.some.inj (hs.symm.trans hasked), hfatal⟩
  · rintro (⟨rfl, rfl, hshape | ⟨fields, rfl, hshape⟩⟩ | ⟨rfl, hfatal⟩)
    · exact .introduction hs hshape
    · exact .client hs hshape
    · exact .call hs hfatal

theorem fatalRequest_of_no_name {host : Host} {method params : Json} {b : Breakdown}
    (hs : method.string? = none) :
    FatalRequest host method params b ↔ b = .notAName ∧ IsCompound method := by
  constructor
  · rintro (hshape | ⟨hasked, -⟩ | ⟨hasked, -⟩ | ⟨hasked, -⟩)
    · exact ⟨rfl, hshape⟩
    all_goals cases hs.symm.trans hasked
  · rintro ⟨rfl, hshape⟩
    exact .method hshape

theorem dispatch_gives (host : Host) (method params : Json) :
    ∃ r, Gives (dispatch host method params).run r ∧
      ∀ b, r = .error b ↔ FatalRequest host method params b := by
  unfold dispatch
  by_cases hmethod : IsCompound method
  · refine ⟨.error .notAName, Gives.bind_error ?_, fun b => ?_⟩
    · exact Gives.lift_of_eq (asName_of_isCompound hmethod)
    · rw [fatalRequest_of_no_name (string?_of_isCompound hmethod)]
      simp [hmethod, eq_comm]
  have hfirst : Gives (liftM (asName method) : Serving Json).run (.ok method) :=
    Gives.lift_of_eq (asName_of_not_isCompound hmethod)
  refine hfirst.exists_bind_ok ?_
  cases hs : method.string? with
  | none =>
    refine ⟨.ok (.error (.unknownMethod method)), Gives.pure _, fun b => ?_⟩
    simp [fatalRequest_of_no_name hs, hmethod]
  | some name =>
    simp only [fatalRequest_of_name hs]
    split
    next h =>
      obtain rfl := Option.some.inj h
      cases hi : introduce params with
      | ok result => exact ⟨.ok (.ok result), fun _ => rfl, fun b => by simp⟩
      | error e => exact ⟨.error e, fun _ => rfl, fun b => by simp⟩
    next h =>
      obtain rfl := Option.some.inj h
      exact ⟨_, Gives.pure _, fun b => by simp⟩
    next h =>
      obtain rfl := Option.some.inj h
      obtain ⟨r, hr, hiff⟩ := callTool_gives host params
      exact ⟨r, hr, fun b => by simp [hiff]⟩
    next h =>
      obtain rfl := Option.some.inj h
      exact ⟨_, Gives.pure _, fun b => by simp⟩
    next hinit _ hcall _ =>
      refine ⟨_, Gives.pure _, fun b => ?_⟩
      have h1 : name ≠ "initialize" := fun h => hinit (h ▸ rfl)
      have h2 : name ≠ "tools/call" := fun h => hcall (h ▸ rfl)
      simp [h1, h2]

theorem notice_eq_error {method params : Json} {b : Breakdown} :
    notice method params = .error b ↔ b = .notAnObject ∧
      method.string? = some "notifications/cancelled" ∧ ¬IsObject params := by
  unfold notice
  split
  next h =>
    rw [map_eq_error, field_eq_error]
    simp [h]
  next h =>
    constructor
    · rintro h'
      cases h'
    · rintro ⟨-, hs, -⟩
      exact absurd hs h

theorem fatal_notification {host : Host} {fields : Fields} {b : Breakdown}
    (hid : idOf fields = .null) : Fatal host (.object fields) b ↔
      notice (methodOf fields) (paramsOf fields) = .error b := by
  rw [notice_eq_error]
  constructor
  · rintro (hshape | ⟨-, hcancels, hshape⟩ | ⟨hasked, -⟩)
    · exact absurd trivial hshape
    · exact ⟨rfl, hcancels, hshape⟩
    · exact absurd hid hasked
  · rintro ⟨rfl, hcancels, hshape⟩
    exact .notification hid hcancels hshape

theorem fatal_request {host : Host} {fields : Fields} {b : Breakdown}
    (hid : idOf fields ≠ .null) : Fatal host (.object fields) b ↔
      FatalRequest host (methodOf fields) (paramsOf fields) b := by
  constructor
  · rintro (hshape | ⟨hunasked, -⟩ | ⟨-, hfatal⟩)
    · exact absurd trivial hshape
    · exact absurd hunasked hid
    · exact hfatal
  · exact .request hid

/-- A message comes to a reply, to none or to the breakdown that `Fatal` says. -/
theorem handle_gives (host : Host) (message : Json) :
    ∃ r, Gives (handle host message).run r ∧ ∀ b, r = .error b ↔ Fatal host message b := by
  unfold handle
  rcases not_isObject_or message with hshape | ⟨fields, rfl⟩
  · refine ⟨.error .notAnObject, Gives.bind_error ?_, fun b => ⟨?_, ?_⟩⟩
    · exact Gives.lift_of_eq (field_of_not_isObject hshape "method")
    · rintro h
      exact Except.error.inj h ▸ .message hshape
    · rintro (_ | _ | _)
      · rfl
      all_goals exact absurd trivial hshape
  refine (Gives.lift _).exists_bind_ok ((Gives.lift _).exists_bind_ok
    ((Gives.lift _).exists_bind_ok ?_))
  split
  next hid =>
    simp only [fatal_notification hid]
    cases hn : notice (methodOf fields) (paramsOf fields) with
    | ok _ =>
      exact ⟨.ok none, (Gives.lift_of_eq hn).bind_ok (Gives.pure _), fun b => by simp⟩
    | error e => exact ⟨.error e, (Gives.lift_of_eq hn).bind_error, fun b => by simp⟩
  next id hid =>
    simp only [fatal_request hid]
    obtain ⟨r, hr, hiff⟩ := dispatch_gives host (methodOf fields) (paramsOf fields)
    simp only [← hiff]
    cases r with
    | ok outcome =>
      exact ⟨.ok (some _), Gives.bind_ok hr (Gives.pure _), fun b => by simp⟩
    | error e => exact ⟨.error e, Gives.bind_error hr, fun b => by simp⟩

theorem handleAll_ok {host : Host} {message : Json} {rest : List Json} {answer : Option Json}
    {replies : List Json} {ending : Option Breakdown}
    (h : Gives (handle host message).run (.ok answer))
    (hrest : Gives (handleAll host rest) (replies, ending)) :
    Gives (handleAll host (message :: rest)) (answer.toList ++ replies, ending) :=
  h.bind (hrest.bind (Gives.pure _))

theorem handleAll_error {host : Host} {message : Json} {rest : List Json} {b : Breakdown}
    (h : Gives (handle host message).run (.error b)) :
    Gives (handleAll host (message :: rest)) ([], some b) :=
  h.bind (Gives.pure _)

/-- A session ends with the breakdown of the first fatal message, and without one where no message
is fatal. -/
theorem handleAll_gives (host : Host) (messages : List Json) :
    ∃ replies ending, Gives (handleAll host messages) (replies, ending) ∧
      (ending = none ↔ ∀ m ∈ messages, ∀ b, ¬Fatal host m b) ∧
      ∀ b, ending = some b → ∃ before message after, messages = before ++ message :: after ∧
        (∀ m ∈ before, ∀ b', ¬Fatal host m b') ∧ Fatal host message b := by
  induction messages with
  | nil => exact ⟨[], none, Gives.pure _, by simp, by simp⟩
  | cons message rest ih =>
    obtain ⟨r, hr, hiff⟩ := handle_gives host message
    cases r with
    | error e =>
      have hfatal : Fatal host message e := (hiff e).mp rfl
      refine ⟨[], some e, handleAll_error hr, ⟨?_, ?_⟩, fun b h => ?_⟩
      · rintro h
        cases h
      · intro hsafe
        exact absurd hfatal (hsafe message List.mem_cons_self e)
      · obtain rfl := Option.some.inj h
        exact ⟨[], message, rest, rfl, by simp, hfatal⟩
    | ok answer =>
      have hsafe : ∀ b, ¬Fatal host message b := fun b hb => nomatch (hiff b).mpr hb
      obtain ⟨replies, ending, hrest, hnone, hsome⟩ := ih
      refine ⟨_, ending, handleAll_ok hr hrest, ?_, fun b h => ?_⟩
      · rw [hnone, List.forall_mem_cons]
        exact ⟨fun h => ⟨hsafe, h⟩, fun h => h.2⟩
      · obtain ⟨before, m, after, rfl, hbefore, hfatal⟩ := hsome b h
        exact ⟨message :: before, m, after, rfl,
          List.forall_mem_cons.mpr ⟨hsafe, hbefore⟩, hfatal⟩

/-- A message that is survived leaves the rest of the session as it would be without it; one that
is not leaves nothing. -/
theorem handleAll_cons_gives (host : Host) (message : Json) (rest : List Json) :
    ∃ outcome replies ending, Gives (handle host message).run outcome ∧
      Gives (handleAll host rest) (replies, ending) ∧
      Gives (handleAll host (message :: rest)) (match outcome with
        | .ok answer => (answer.toList ++ replies, ending)
        | .error b => ([], some b)) := by
  obtain ⟨r, hr, -⟩ := handle_gives host message
  obtain ⟨replies, ending, hrest, -⟩ := handleAll_gives host rest
  refine ⟨r, replies, ending, hr, hrest, ?_⟩
  cases r with
  | error b => exact handleAll_error hr
  | ok answer => exact handleAll_ok hr hrest

theorem serve_gives (host : Host) (input : Text.Utf8.Bytes) :
    ∃ output ending, Gives (serve host input) (output, ending) ∧
      (ending = none ↔ (readMessages host.repository.machine.nesting input).2 = false ∧
        ∀ m ∈ (readMessages host.repository.machine.nesting input).1, ∀ b, ¬Fatal host m b) := by
  obtain ⟨replies, ending, hrun, hnone, -⟩ :=
    handleAll_gives host (readMessages host.repository.machine.nesting input).1
  refine ⟨_, _, hrun.bind (Gives.pure _), ?_⟩
  rw [Option.or_eq_none_iff, hnone, and_comm]
  simp

theorem survives_iff (host : Host) :
    (∀ message, (∃ answer, Gives (handle host message).run (.ok answer)) ↔
      ∀ b, ¬Fatal host message b) ∧
    (∀ message b, Gives (handle host message).run (.error b) ↔ Fatal host message b) ∧
    (∀ message rest, ∃ outcome replies ending, Gives (handle host message).run outcome ∧
      Gives (handleAll host rest) (replies, ending) ∧
      Gives (handleAll host (message :: rest)) (match outcome with
        | .ok answer => (answer.toList ++ replies, ending)
        | .error b => ([], some b))) ∧
    ∀ input, ∃ output ending, Gives (serve host input) (output, ending) ∧
      (ending = none ↔ (readMessages host.repository.machine.nesting input).2 = false ∧
        ∀ m ∈ (readMessages host.repository.machine.nesting input).1, ∀ b, ¬Fatal host m b) := by
  refine ⟨fun message => ?_, fun message b => ?_, handleAll_cons_gives host, serve_gives host⟩
  · obtain ⟨r, hr, hiff⟩ := handle_gives host message
    constructor
    · rintro ⟨answer, h⟩ b hfatal
      cases (hr.unique h).symm.trans ((hiff b).mpr hfatal)
    · intro hsafe
      cases r with
      | ok answer => exact ⟨answer, hr⟩
      | error b => exact absurd ((hiff b).mp rfl) (hsafe b)
  · obtain ⟨r, hr, hiff⟩ := handle_gives host message
    rw [← hiff]
    exact ⟨hr.unique, fun h => h ▸ hr⟩

def emptyHost : Host :=
  { repository := ⟨.usual, .folder [("p", .folder [])], ⟨.root, ["p"]⟩, {}⟩
    git := fun _ => .unavailable ""
    here := ⟨.root, ["p"]⟩ }

def endlessCall : Json :=
  .object [("id", .int 2), ("method", .text "tools/call"),
    ("params", .object [("name", .text "dependents_of"),
      ("arguments", .object [("path", .text "b.js"), ("max_depth", .real (.infinite false))])])]

theorem endlessCall_breaks : ¬∃ answer, Gives (handle emptyHost endlessCall).run (.ok answer) := by
  rintro ⟨answer, h⟩
  have hfatal : Fatal emptyHost endlessCall (.tool .endless) := by
    refine .request ?_ (.call rfl (.dependents rfl (.endless rfl rfl rfl)))
    rintro hid
    cases hid
  obtain ⟨r, hr, hiff⟩ := handle_gives emptyHost endlessCall
  cases (hr.unique h).symm.trans ((hiff _).mpr hfatal)

end ChangeImpact.Server

import WordAsm.Proofs.Assembly.Stages
import WordAsm.Proofs.Workbench

/-!
# Sessions

In a session one workbench is asked for one program after the other. Its settings are assigned in
between, and others may change the file store. Every call is answered as by a new workbench with
the same settings, and the session leaves what a new workbench keeps of a single call: the last one
whose file and source could be read.
-/

namespace WordAsm

/-- What happens in a session. -/
inductive Event (σ : Type)
  | setEntryPoint (name : String)
  | setTerminatorWords (count : Int)
  | changeStore (change : σ → σ)
  | ask (request : Request)

/-- A request together with the settings and the file store in force when it is made. -/
structure Call (σ : Type) where
  settings : Settings
  store : σ
  request : Request

/-- A workbench in use: what it answered so far, and the file store around it. -/
structure Session (σ : Type) where
  bench : Workbench
  store : σ
  answers : List (Except Failure (List Int)) := []

variable {σ : Type} [Files (StateM σ)]

/-- The assembly that a request asks for. -/
def Request.outcome
    (settings : Settings)
    (store : σ) : Request → Except Failure Assembly
  | .ofTokens tokens => Assembly.ofTokens settings tokens
  | .ofSource text file => Assembly.ofSource settings text file
  | .ofFile path => do
      let text ← ((Files.readText path : StateM σ _) store).1
      Assembly.ofSource settings text (Path.normalize path)

namespace Call

/-- What a new workbench answers to a call, and what it is afterwards. -/
def alone (call : Call σ) : Except Failure (List Int) × Workbench :=
  (({ settings := call.settings } : Workbench).answer call.request call.store).1

/-- Whether the tokens of a call are reached: its file and its source can be read. -/
def isRead (call : Call σ) : Bool :=
  (call.request.tokens? call.store).1.isOk

/-- What a new workbench keeps of the last of some calls that is read. -/
def leftBy
    (calls : List (Call σ))
    (before : Assembly) : Assembly :=
  ((calls.filter isRead).getLast?.map (·.alone.2.assembly)).getD before

end Call

/-- The calls of a session that starts with some settings and a file store. Only the settings and
the store are followed here, not the workbench. -/
def Event.calls
    (settings : Settings)
    (store : σ) : List (Event σ) → List (Call σ)
  | [] => []
  | .setEntryPoint entryPoint :: events => calls { settings with entryPoint } store events
  | .setTerminatorWords terminatorWords :: events =>
      calls { settings with terminatorWords } store events
  | .changeStore change :: events => calls settings (change store) events
  | .ask request :: events =>
      ⟨settings, store, request⟩ :: calls settings (request.tokens? store).2 events

namespace Session

/-- One thing happens. -/
def step
    (session : Session σ) : Event σ → Session σ
  | .setEntryPoint name => { session with bench.settings.entryPoint := name }
  | .setTerminatorWords count => { session with bench.settings.terminatorWords := count }
  | .changeStore change => { session with store := change session.store }
  | .ask request =>
      let ((answer, bench), store) := session.bench.answer request session.store
      { bench, store, answers := session.answers ++ [answer] }

/-- One thing happens after the other. -/
def run
    (session : Session σ)
    (events : List (Event σ)) : Session σ :=
  events.foldl step session

/-- A new workbench with some settings and no results. -/
def start
    (settings : Settings)
    (store : σ) : Session σ where
  bench := { settings }
  store := store

end Session

namespace Workbench

/-- The words of a new program are answered and its results are kept; a failure keeps none. -/
theorem replace_eq
    (bench : Workbench)
    (outcome : Except Failure Assembly) :
    bench.replace outcome =
      (outcome.map (·.words), ⟨bench.settings, outcome.toOption.getD {}⟩) := by
  cases outcome <;> rfl

theorem assembleSource_eq_replace
    (bench : Workbench)
    {source file : String}
    {tokens : List Token}
    (read : Token.ofSource source file = .ok tokens) :
    bench.assembleSource source file =
      bench.replace (Assembly.ofSource bench.settings source file) := by
  rw [assembleSource, read, Assembly.ofSource_of_read read]

/-- A source is assembled with the words of its assembly, and leaves that assembly. -/
theorem assembleSource_eq_ok_iff
    {bench later : Workbench}
    {source file : String}
    {words : List Int} :
    bench.assembleSource source file = (.ok words, later) ↔
      ∃ assembly, Assembly.ofSource bench.settings source file = .ok assembly ∧
        assembly.words = words ∧ ⟨bench.settings, assembly⟩ = later := by
  constructor
  · intro made
    cases read : Token.ofSource source file with
    | error failure =>
        rw [bench.assembleSource_of_unread read] at made
        cases made
    | ok tokens =>
        rw [bench.assembleSource_eq_replace read, replace_eq] at made
        cases outcome : Assembly.ofSource bench.settings source file with
        | error failure =>
            rw [outcome] at made
            cases made
        | ok assembly =>
            rw [outcome] at made
            cases made
            exact ⟨assembly, rfl, rfl, rfl⟩
  · rintro ⟨assembly, made, rfl, rfl⟩
    obtain ⟨tokens, read, _⟩ := (Assembly.ofSource_eq_ok_iff ..).mp made
    rw [bench.assembleSource_eq_replace read, made]
    rfl

/-- A request whose tokens are reached replaces the results by those of its program. -/
theorem answer_of_read
    (bench : Workbench)
    (request : Request)
    (store : σ)
    {tokens : List Token}
    (read : (request.tokens? store).1 = .ok tokens) :
    (bench.answer request store).1 = bench.replace (request.outcome bench.settings store) := by
  cases request with
  | ofTokens others => rfl
  | ofSource text file => exact bench.assembleSource_eq_replace read
  | ofFile path =>
      rw [tokens?_ofFile] at read
      rw [answer_ofFile, Request.outcome]
      cases found : ((Files.readText path : StateM σ _) store).1 with
      | error fault =>
          rw [found] at read
          cases read
      | ok text =>
          rw [found] at read
          exact bench.assembleSource_eq_replace read

/-- What a request does to the file store does not depend on the workbench. -/
theorem store_answer
    (bench : Workbench)
    (request : Request)
    (store : σ) :
    (bench.answer request store).2 = (request.tokens? store).2 := by
  cases request <;> rfl

end Workbench

namespace Call

/-- The results of a call that is read are those of its program, and none if that fails. -/
theorem alone_of_isRead
    {call : Call σ}
    (read : call.isRead = true) :
    let outcome := call.request.outcome call.settings call.store
    call.alone = (outcome.map (·.words), ⟨call.settings, outcome.toOption.getD {}⟩) := by
  cases found : (call.request.tokens? call.store).1 with
  | error failure =>
      rw [isRead, found] at read
      cases read
  | ok tokens => rw [alone, Workbench.answer_of_read _ _ _ found, Workbench.replace_eq]

/-- A call that is not read leaves a new workbench as it is. -/
theorem alone_of_not_isRead
    {call : Call σ}
    (unread : call.isRead = false) :
    ∃ failure, call.alone = (.error failure, { settings := call.settings }) ∧
      (call.request.tokens? call.store).1 = .error failure := by
  cases found : (call.request.tokens? call.store).1 with
  | error failure => exact ⟨failure, Workbench.answer_of_unread _ _ _ found, rfl⟩
  | ok tokens =>
      rw [isRead, found] at unread
      cases unread

theorem leftBy_cons
    (call : Call σ)
    (calls : List (Call σ))
    (before : Assembly) :
    leftBy (call :: calls) before =
      leftBy calls (if call.isRead then call.alone.2.assembly else before) := by
  cases read : call.isRead with
  | false => simp [leftBy, read]
  | true =>
      simp only [leftBy, List.filter_cons_of_pos read, List.getLast?_cons, if_true]
      cases (calls.filter isRead).getLast? <;> rfl

end Call

namespace Session

/-- Whatever was assembled before, a request is answered as by a new workbench. The results are
the new ones if the tokens are reached, and stay as they were otherwise. -/
theorem step_ask
    (session : Session σ)
    (request : Request) :
    let call : Call σ := ⟨session.bench.settings, session.store, request⟩
    session.step (.ask request) =
      { bench.settings := session.bench.settings
        bench.assembly :=
          if call.isRead then call.alone.2.assembly else session.bench.assembly
        store := (request.tokens? session.store).2
        answers := session.answers ++ [call.alone.1] } := by
  intro call
  have answered : (session.bench.answer request session.store).1 =
      (call.alone.1, ⟨session.bench.settings,
        if call.isRead then call.alone.2.assembly else session.bench.assembly⟩) := by
    cases read : call.isRead with
    | true =>
        cases found : (request.tokens? session.store).1 with
        | error failure =>
            rw [Call.isRead, found] at read
            cases read
        | ok tokens =>
            rw [Workbench.answer_of_read _ _ _ found, Workbench.replace_eq,
              Call.alone_of_isRead read]
            rfl
    | false =>
        obtain ⟨failure, alone_eq, unread⟩ := Call.alone_of_not_isRead read
        rw [Workbench.answer_of_unread _ _ _ unread, alone_eq]
        rfl
  rw [step, ← session.bench.store_answer request session.store]
  generalize session.bench.answer request session.store = outcome at answered ⊢
  obtain ⟨⟨answer, bench⟩, store⟩ := outcome
  cases answered
  rfl

/-- From any workbench on, every call is answered as by a new workbench, and the results are those
of the last call that is read, or the old ones if there is none. -/
theorem run_eq
    (session : Session σ)
    (events : List (Event σ)) :
    let calls := Event.calls session.bench.settings session.store events
    (session.run events).answers = session.answers ++ calls.map (·.alone.1) ∧
      (session.run events).bench.assembly = Call.leftBy calls session.bench.assembly := by
  -- The settings and the store of the session stay those that `Event.calls` follows, so the
  -- induction goes over the events for all sessions at once.
  induction events generalizing session with
  | nil => exact ⟨(List.append_nil _).symm, rfl⟩
  | cons event events hypothesis =>
      have later := hypothesis (session.step event)
      cases event with
      | setEntryPoint name => exact later
      | setTerminatorWords count => exact later
      | changeStore change => exact later
      | ask request =>
          rw [step_ask] at later
          obtain ⟨answers_eq, assembly_eq⟩ := later
          intro calls
          rw [run, List.foldl_cons, step_ask]
          constructor
          · rw [List.append_assoc, List.singleton_append] at answers_eq
            exact answers_eq
          · exact assembly_eq.trans (Call.leftBy_cons ..).symm

/-- Every call of a session is answered as by a new workbench with the settings in force. What the
session leaves is what a new workbench keeps of the last call that is read: the program whose words
were answered, or nothing if the call failed or there was none. -/
theorem left_eq_alone
    (settings : Settings)
    (store : σ)
    (events : List (Event σ)) :
    let calls := Event.calls settings store events
    let session := (start settings store).run events
    session.answers = calls.map (·.alone.1) ∧
      match (calls.filter (·.isRead)).getLast? with
      | none => session.bench.assembly.IsBlank
      | some call =>
          session.bench.assembly = call.alone.2.assembly ∧
            match call.alone.1 with
            | .ok words => session.bench.assembly.words = words
            | .error _ => session.bench.assembly.IsBlank := by
  intro calls session
  obtain ⟨answers_eq, assembly_eq⟩ := (start settings store).run_eq events
  refine ⟨answers_eq, ?_⟩
  change session.bench.assembly = Call.leftBy calls {} at assembly_eq
  rw [Call.leftBy] at assembly_eq
  cases last_eq : (calls.filter (·.isRead)).getLast? with
  | none =>
      rw [last_eq] at assembly_eq
      rw [assembly_eq]
      exact Assembly.isBlank_empty
  | some call =>
      rw [last_eq] at assembly_eq
      have kept : session.bench.assembly = call.alone.2.assembly := assembly_eq
      have read : call.isRead = true :=
        (List.mem_filter.mp (List.mem_of_getLast? last_eq)).2
      refine ⟨kept, ?_⟩
      rw [kept, Call.alone_of_isRead read]
      cases call.request.outcome call.settings call.store with
      | ok assembly => rfl
      | error failure => exact Assembly.isBlank_empty

end Session
end WordAsm

import Hearth.Proofs.Failure
import Hearth.Proofs.Session.Interpretation
import Hearth.Proofs.Session.Phrases
import Mathlib.Algebra.Ring.Int.Defs

/-!
# Runs

A session hands out each statement that is complete outside all blocks, and goes on when it is told
how its run ended. So the statements outside all blocks are run, each once and in the order of the
text, up to the first call that fails; and no block is open meanwhile.

## Main definitions

* `Session.Plays` : a session goes on while statements are run for it.
* `Orderly` : the runs of a log are those of given statements, in order.

## Main results

* `Session.plays_advance`, `Session.exists_plays` : a session that goes on makes its calls.
* `Script.Forest.orderly_interpret` : the runs of a forest are orderly.
* `Session.stack_refines_recursion` : the stack of a session does what recursion does.
-/

namespace Hearth

open Script

/-! ### Runs of statements -/

/-- A statement that was run: the house before, how the run ended, and the house after. -/
structure StatementRun where
  statement : Statement
  before : House
  answer : Except ScriptError Flow
  after : House

/-- The run that was called for, if it was one. -/
def Made.run? : Made → Option StatementRun
  | ⟨.run statement, before, answer, after⟩ => some ⟨statement, before, answer, after⟩
  | _ => none

/-- The runs of a log. -/
def runsOf (log : List Made) : List StatementRun := log.filterMap Made.run?

theorem runsOf_append (log more : List Made) : runsOf (log ++ more) = runsOf log ++ runsOf more :=
  List.filterMap_append

/-- How many more blocks are open after a call. -/
def Request.opens : Request → Int
  | .startBlock _ => 1
  | .endBlock _ => -1
  | _ => 0

/-- How many more blocks are open after a log. -/
def opensOf (log : List Made) : Int := (log.map fun m => m.call.opens).sum

theorem opensOf_append (log more : List Made) :
    opensOf (log ++ more) = opensOf log + opensOf more := by
  simp [opensOf]

/-- A statement that is run can end in any way. -/
theorem Request.answered_run {statement : Statement} {h h' : House}
    {answer : Except ScriptError (Request.run statement).Answer} :
    (Request.run statement).Answered h answer h' := nofun

/-- A call that runs nothing, and starts or ends no block. -/
def Request.IsPlain : Request → Prop
  | .run _ | .startBlock _ | .endBlock _ => False
  | _ => True

/-- A call that runs nothing. -/
def Request.IsQuiet : Request → Prop
  | .run _ => False
  | _ => True

/-- A log of calls that run nothing has no runs. -/
theorem runsOf_quiet {log : List Made} (h : ∀ m ∈ log, m.call.IsQuiet) : runsOf log = [] := by
  refine List.filterMap_eq_nil_iff.mpr fun m hm => ?_
  obtain ⟨call, before, answer, after⟩ := m
  cases call with
  | run statement => exact (h _ hm).elim
  | _ => rfl

/-- A log of plain calls leaves as many blocks open. -/
theorem opensOf_plain {log : List Made} (h : ∀ m ∈ log, m.call.IsPlain) : opensOf log = 0 := by
  induction log with
  | nil => rfl
  | cons m log ih =>
    have hplain := h m List.mem_cons_self
    have hzero : m.call.opens = 0 := by
      cases hcall : m.call with
      | run | startBlock | endBlock => exact (hcall ▸ hplain).elim
      | _ => rfl
    rw [opensOf, List.map_cons, List.sum_cons, hzero, Int.zero_add]
    exact ih fun m hm => h m (List.mem_cons_of_mem _ hm)

/-! ### A session goes on -/

namespace Session

/-- A session goes on, while the statements that it hands out are run and anything comes of that. -/
inductive Plays : House × Session × Progress → List StatementRun →
    House × Session × Except ScriptError Unit → Prop
  | ready (h : House) (s : Session) : Plays (h, s, .ready) [] (h, s, .ok ())
  | failed (h : House) (s : Session) (e : ScriptError) :
    Plays (h, s, .failed e) [] (h, s, .error e)
  | run {h h₁ : House} {s : Session} {statement : Statement} {answer : Except ScriptError Flow}
    {runs : List StatementRun} {y : House × Session × Except ScriptError Unit}
    (hrest : Plays (s.afterRun h₁ statement answer) runs y) :
    Plays (h, s, .run statement) (⟨statement, h, answer, h₁⟩ :: runs) y

/-- What a session ends with is what its calls end with; an error has a line. -/
def Ends (r₀ : Except ScriptError Session) (s : Session) (r : Except ScriptError Unit) : Prop :=
  match r₀ with
  | .ok s₀ => s = s₀ ∧ r = .ok ()
  | .error e => ∃ line, r = .error (e.atLineOnce line)

/-- The calls of an action do not depend on the actions after it. -/
theorem calls_actions (s : Session) (action : Action) (actions actions' : List Action) :
    Session.calls { s with actions } action = (do
      let (s, statement) ← Session.calls { s with actions := actions' } action
      pure ({ s with actions }, statement)) := by
  have hcomplete (s : Session) (statement : Statement) :
      completeCalls { s with actions } statement = (do
        let (s, statement) ← completeCalls { s with actions := actions' } statement
        pure ({ s with actions }, statement)) := by
    rw [completeCalls, completeCalls]
    cases s.blocks <;> simp only [bind_assoc, pure_bind]
  cases action with
  | simple words line => simp only [calls, bind_assoc, hcomplete s]
  | opened words line => simp only [calls, bind_assoc, pure_bind]
  | closed line =>
    rw [calls, calls]
    cases s.blocks with
    | nil => rfl
    | cons statement blocks => simp only [bind_assoc, hcomplete { s with blocks }]

variable {s s' : Session} {action : Action} {actions : List Action} {h h' : House}
  {log : List Made}

theorem performs_calls_ok (actions : List Action) {statement : Option Statement} :
    (Session.calls { s with actions := [] } action).Performs h log (.ok (s', statement)) h' ↔
      ∃ s₁, (Session.calls { s with actions } action).Performs h log (.ok (s₁, statement)) h' ∧
        s' = { s₁ with actions := [] } := by
  rw [s.calls_actions action [] actions, Calls.performs_bind]
  constructor
  · rintro (⟨⟨s₁, statement'⟩, h₁, log₁, log₂, hcalls, hpure, rfl⟩ | ⟨e, -, he⟩)
    · cases hpure
      rw [List.append_nil]
      exact ⟨s₁, hcalls, rfl⟩
    · cases he
  · rintro ⟨s₁, hcalls, rfl⟩
    exact .inl ⟨(s₁, statement), h', log, [], hcalls, .pure _ h', (List.append_nil log).symm⟩

theorem performs_calls_error (actions : List Action) {e : ScriptError} :
    (Session.calls { s with actions := [] } action).Performs h log (.error e) h' ↔
      (Session.calls { s with actions } action).Performs h log (.error e) h' := by
  rw [s.calls_actions action [] actions, Calls.performs_bind]
  constructor
  · rintro (⟨x, h₁, log₁, log₂, -, hpure, -⟩ | ⟨e', hcalls, he⟩)
    · cases hpure
    · cases he
      exact hcalls
  · exact fun hcalls => .inr ⟨e, hcalls, rfl⟩

/-- No action runs a statement by itself. -/
theorem calls_quiet (s : Session) (action : Action) : (s.calls action).Only Request.IsQuiet := by
  have hbegin (around : Option Statement) (words : Name) (line : Nat) :
      (beginStatement s.scope around words line).Only Request.IsQuiet :=
    .bind (.ask trivial) fun _ => .bind (.ask trivial) fun _ => .ask trivial
  have hcomplete (s : Session) (statement : Statement) :
      (s.completeCalls statement).Only Request.IsQuiet := by
    rw [completeCalls]
    split
    · trivial
    · refine .bind ?_ fun _ => trivial
      rw [handTo]
      split <;> exact .ask trivial
  cases action with
  | simple words line =>
    exact .bind (hbegin ..) fun _ => .bind (.ask trivial) fun _ => hcomplete ..
  | opened words line =>
    exact .bind (hbegin ..) fun _ => .bind (.ask trivial) fun _ => .bind (.ask trivial) fun _ =>
      .bind (.ask trivial) fun _ => trivial
  | closed line =>
    rw [calls]
    split
    · trivial
    · exact .bind (.ask trivial) fun _ => hcomplete ..

theorem runsOf_calls {r : Except ScriptError (Session × Option Statement)}
    (hcalls : (s.calls action).Performs h log r h') : runsOf log = [] :=
  runsOf_quiet ((s.calls_quiet action).log hcalls)

/-- An error that a session fails with has a line. -/
theorem fail_plays {e : ScriptError} {runs : List StatementRun} {r : Except ScriptError Unit}
    (hplays : Plays (h, s.fail e) runs (h', s', r)) :
    h = h' ∧ runs = [] ∧ ∃ line, r = .error (e.atLineOnce line) := by
  rw [fail] at hplays
  cases hmode : s.mode with
  | script | interactive =>
    rw [hmode] at hplays
    cases hplays
    exact ⟨rfl, rfl, _, rfl⟩

/-- Some error that a session fails with. -/
theorem exists_fail_plays (s : Session) (h : House) (e : ScriptError) :
    ∃ s' line, Plays (h, s.fail e) [] (h, s', .error (e.atLineOnce line)) := by
  rw [fail]
  cases s.mode with
  | script | interactive => exact ⟨_, _, .failed ..⟩

/-- A session that goes on makes its calls. -/
theorem plays_advance {runs : List StatementRun} {r : Except ScriptError Unit} {n : Nat}
    (hactions : s.actions = actions) (hmarks : s.marks = []) (hn : actions.length < n)
    (hplays : Plays (s.advance h n) runs (h', s', r)) :
    ∃ log r₀, (interpretAll actions { s with actions := [] }).Performs h log r₀ h' ∧
      runsOf log = runs ∧ Ends r₀ s' r := by
  induction actions generalizing s h n runs with
  | nil =>
    obtain ⟨n, rfl⟩ := Nat.exists_eq_succ_of_ne_zero (Nat.ne_of_gt hn)
    rw [advance, hactions, hmarks] at hplays
    cases hplays
    refine ⟨[], _, .pure _ _, rfl, ?_, rfl⟩
    rw [← hactions]
  | cons action actions ih =>
    obtain ⟨n, rfl⟩ := Nat.exists_eq_succ_of_ne_zero (Nat.ne_zero_of_lt hn)
    have hn' : actions.length < n := Nat.lt_of_succ_lt_succ hn
    rw [advance, hactions] at hplays
    dsimp only at hplays
    rw [interpretAll]
    rcases hrun : (Session.act { s with actions } action).runOn h with ⟨e | ⟨s₁, statement⟩, h₁⟩
    · rw [hrun] at hplays
      obtain ⟨log, hcalls⟩ := (calls_does _ _ _ _ _).mp hrun
      have hquiet := runsOf_calls hcalls
      obtain ⟨rfl, rfl, line, rfl⟩ := fail_plays hplays
      have hfirst := (performs_calls_error actions).mpr hcalls
      exact ⟨log, .error e, Calls.performs_bind.mpr (.inr ⟨e, hfirst, rfl⟩), hquiet, line, rfl⟩
    · obtain ⟨log, hcalls⟩ := (calls_does _ _ _ _ _).mp hrun
      have hquiet := runsOf_calls hcalls
      obtain ⟨blocks, hs₁, -⟩ := act_blocks hrun
      have hactions₁ : s₁.actions = actions := by rw [hs₁]
      have hmarks₁ : s₁.marks = [] := by rw [hs₁]; exact hmarks
      have hfirst := (performs_calls_ok actions).mpr ⟨_, hcalls, rfl⟩
      rw [hrun] at hplays
      cases statement with
      | none =>
        obtain ⟨log', r₀, hrest, hruns, hends⟩ := ih hactions₁ hmarks₁ hn' hplays
        refine ⟨log ++ log', r₀, Calls.performs_bind.mpr
          (.inl ⟨_, h₁, log, log', hfirst, hrest, rfl⟩), ?_, hends⟩
        rw [runsOf_append, hquiet, hruns]
        rfl
      | some statement =>
        cases hplays with
        | @run _ h₂ _ _ answer runs _ hplays =>
          cases answer with
          | ok flow =>
            have hrounds : actions.length < s₁.rounds := by
              rw [rounds, hactions₁]
              omega
            obtain ⟨log', r₀, hrest, hruns, hends⟩ := ih hactions₁ hmarks₁ hrounds hplays
            refine ⟨log ++ ⟨.run statement, h₁, .ok flow, h₂⟩ :: log', r₀,
              Calls.performs_bind.mpr
                (.inl ⟨_, h₁, log, _, hfirst, .answered Request.answered_run hrest, rfl⟩),
              ?_, hends⟩
            rw [runsOf_append, hquiet, ← hruns]
            rfl
          | error e =>
            obtain ⟨rfl, rfl, line, rfl⟩ := fail_plays hplays
            refine ⟨log ++ [⟨.run statement, h₁, .error e, h₂⟩], .error e,
              Calls.performs_bind.mpr
                (.inl ⟨_, h₁, log, _, hfirst, .failed Request.answered_run, rfl⟩), ?_,
              statement.phrase.line, ?_⟩
            · rw [runsOf_append, hquiet]
              rfl
            · rw [ScriptError.atLineOnce_twice]

/-- Whatever comes of the runs, a session can go on so. -/
theorem exists_plays {r₀ : Except ScriptError Session} {n : Nat} (hactions : s.actions = actions)
    (hmarks : s.marks = []) (hn : actions.length < n)
    (hperf : (interpretAll actions { s with actions := [] }).Performs h log r₀ h') :
    ∃ s' r, Plays (s.advance h n) (runsOf log) (h', s', r) ∧ Ends r₀ s' r := by
  induction actions generalizing s h n log with
  | nil =>
    obtain ⟨n, rfl⟩ := Nat.exists_eq_succ_of_ne_zero (Nat.ne_of_gt hn)
    cases hperf
    have hready : s.advance h' (n + 1) = (h', s, .ready) := by rw [advance, hactions, hmarks]
    rw [hready]
    refine ⟨s, .ok (), .ready h' s, ?_, rfl⟩
    rw [← hactions]
  | cons action actions ih =>
    obtain ⟨n, rfl⟩ := Nat.exists_eq_succ_of_ne_zero (Nat.ne_zero_of_lt hn)
    have hn' : actions.length < n := Nat.lt_of_succ_lt_succ hn
    rw [advance, hactions]
    dsimp only
    rw [interpretAll] at hperf
    rcases Calls.performs_bind.mp hperf with
      ⟨⟨s₀, statement⟩, h₁, log₁, log₂, hfirst, hrest, rfl⟩ | ⟨e, hfirst, rfl⟩
    · obtain ⟨s₁, hcalls, rfl⟩ := (performs_calls_ok actions).mp hfirst
      have hquiet := runsOf_calls hcalls
      have hrun := (calls_does _ _ _ _ _).mpr ⟨_, hcalls⟩
      obtain ⟨blocks, hs₁, -⟩ := act_blocks hrun
      have hactions₁ : s₁.actions = actions := by rw [hs₁]
      have hmarks₁ : s₁.marks = [] := by rw [hs₁]; exact hmarks
      rw [runsOf_append, hquiet, List.nil_append, hrun]
      cases statement with
      | none => exact ih hactions₁ hmarks₁ hn' hrest
      | some statement =>
        have hrounds : actions.length < s₁.rounds := by
          rw [rounds, hactions₁]
          omega
        cases hrest with
        | answered _ hrest =>
          obtain ⟨s', r, hplays, hends⟩ := ih hactions₁ hmarks₁ hrounds hrest
          exact ⟨s', r, .run hplays, hends⟩
        | @failed _ _ e _ h₂ =>
          obtain ⟨s', line, hplays⟩ := exists_fail_plays { s₁ with actions := [], marks := [] } h'
            (e.atLineOnce statement.phrase.line)
          refine ⟨s', _, .run hplays, statement.phrase.line, ?_⟩
          rw [ScriptError.atLineOnce_twice]
    · have hcalls := (performs_calls_error actions).mp hfirst
      have hrun := (calls_does _ _ _ _ _).mpr ⟨_, hcalls⟩
      rw [hrun, runsOf_calls hcalls]
      obtain ⟨s', line, hplays⟩ :=
        exists_fail_plays (afterFailed { s with actions } action) h' e
      exact ⟨s', _, hplays, line, rfl⟩

end Session

/-! ### The order of runs -/

/-- The words and the line that a statement was begun with. -/
def Statement.head (s : Statement) : Name × Nat := (s.phrase.event.name, s.phrase.line)

/-- The words and the lines of the statements of a forest outside all blocks. -/
def Script.Forest.heads : Forest → List (Name × Nat)
  | .nil => []
  | .simple words line rest => (words, line) :: rest.heads
  | .block words line _ _ rest => (words, line) :: rest.heads

/-- Nothing is run while a block is open. -/
def RunsOutside (log : List Made) : Prop :=
  ∀ earlier m after, log = earlier ++ m :: after → m.run?.isSome → opensOf earlier = 0

namespace RunsOutside

variable {log more : List Made}

theorem of_quiet (h : runsOf log = []) : RunsOutside log := by
  rintro earlier m after rfl hm
  have hnone : m.run? = none :=
    List.filterMap_eq_nil_iff.mp h m (List.mem_append_right _ List.mem_cons_self)
  rw [hnone] at hm
  exact absurd hm Bool.false_ne_true

theorem singleton (m : Made) : RunsOutside [m] := by
  intro earlier m' after hlog hm
  cases earlier with
  | nil => rfl
  | cons m₁ earlier => simp at hlog

theorem append (hlog : RunsOutside log) (hopens : opensOf log = 0) (hmore : RunsOutside more) :
    RunsOutside (log ++ more) := by
  intro earlier m after heq hm
  rcases List.append_eq_append_iff.mp heq with ⟨between, rfl, hsplit⟩ | ⟨between, hsplit, hafter⟩
  · rw [opensOf_append, hopens, hmore _ _ _ hsplit hm]
    rfl
  · cases between with
    | nil =>
      rw [List.append_nil] at hsplit
      rw [← hsplit]
      exact hopens
    | cons m' between =>
      obtain ⟨rfl, -⟩ := List.cons_eq_cons.mp hafter
      exact hlog _ _ _ hsplit hm

end RunsOutside

/-- The runs of a log are those of given statements: each at most once and in their order, and all
if nothing failed; no immediate statement is run, and nothing is run while a block is open. -/
structure Orderly (heads : List (Name × Nat)) (log : List Made) (r : Except ScriptError Unit) :
    Prop where
  inOrder : (runsOf log).map (fun run => run.statement.head) <+: heads
  all : r = .ok () → (runsOf log).map (fun run => run.statement.head) = heads
  later : ∀ run ∈ runsOf log, run.statement.verb.immediate = false
  outside : RunsOutside log

/-- Calls that begin a statement outside all blocks, and end its block, run nothing; in the end the
statement is not immediate and no block is open. -/
structure Prepares (p : Calls Statement) (words : Name) (line : Nat) : Prop where
  quiet : p.Only Request.IsQuiet
  ready : ∀ h log statement h', p.Performs h log (.ok statement) h' →
    statement.head = (words, line) ∧ statement.verb.immediate = false ∧ opensOf log = 0

variable {h h' : House} {log : List Made}

/-- What is called for a statement and its run, and then for other statements, is orderly if the
rest is. -/
theorem Prepares.orderly {p : Calls Statement} {words : Name} {line : Nat}
    (hp : Prepares p words line) {rest : Calls Unit} {heads : List (Name × Nat)}
    (hrest : ∀ h log r h', rest.Performs h log r h' → Orderly heads log r)
    {r : Except ScriptError Unit}
    (hperf : (do
      let statement ← p
      let _ ← Request.ask (.run statement)
      rest : Calls Unit).Performs h log r h') : Orderly ((words, line) :: heads) log r := by
  rcases Calls.performs_bind.mp hperf with
    ⟨statement, h₁, log₁, log₂, hstatement, hrun, rfl⟩ | ⟨e, hstatement, rfl⟩
  · obtain ⟨hhead, hlater, hopens⟩ := hp.ready _ _ _ _ hstatement
    have hquiet : runsOf log₁ = [] := runsOf_quiet (hp.quiet.log hstatement)
    have hopened (m : Made) (hm : m.call = .run statement) : opensOf (log₁ ++ [m]) = 0 := by
      rw [opensOf_append, hopens, opensOf, List.map_singleton, hm]
      rfl
    have houtside₁ (m : Made) : RunsOutside (log₁ ++ [m]) :=
      (RunsOutside.of_quiet hquiet).append hopens (.singleton m)
    rw [← hhead]
    cases hrun with
    | @answered _ _ flow _ h₂ _ log₂ _ _ hnext =>
      obtain ⟨hinOrder, hall, hlaters, houtside⟩ := hrest _ _ _ _ hnext
      have hruns : runsOf (log₁ ++ ⟨.run statement, h₁, .ok flow, h₂⟩ :: log₂) =
          ⟨statement, h₁, .ok flow, h₂⟩ :: runsOf log₂ := by
        rw [runsOf_append, hquiet]
        rfl
      refine ⟨?_, fun hr => ?_, ?_, ?_⟩
      · rw [hruns]
        exact List.cons_prefix_cons.mpr ⟨rfl, hinOrder⟩
      · rw [hruns]
        exact congrArg _ (hall hr)
      · rw [hruns]
        exact List.forall_mem_cons.mpr ⟨hlater, hlaters⟩
      · have hsplit :=
          (houtside₁ ⟨.run statement, h₁, .ok flow, h₂⟩).append (hopened _ rfl) houtside
        rwa [List.append_assoc] at hsplit
    | @failed _ _ e =>
      have hruns : runsOf (log₁ ++ [⟨.run statement, h₁, .error e, h'⟩]) =
          [⟨statement, h₁, .error e, h'⟩] := by
        rw [runsOf_append, hquiet]
        rfl
      refine ⟨?_, nofun, ?_, houtside₁ _⟩
      · rw [hruns]
        exact List.cons_prefix_cons.mpr ⟨rfl, List.nil_prefix⟩
      · rw [hruns]
        exact List.forall_mem_singleton.mpr hlater
  · have hquiet : runsOf log = [] := runsOf_quiet (hp.quiet.log hstatement)
    refine ⟨?_, nofun, ?_, .of_quiet hquiet⟩
    · rw [hquiet]
      exact List.nil_prefix
    · rw [hquiet]
      exact List.forall_mem_nil _

/-! ### The calls for one statement -/

theorem Request.IsPlain.isQuiet (c : Request) (h : c.IsPlain) : c.IsQuiet := by
  cases c with
  | run => exact h
  | _ => trivial

/-- What a house answers is what work gives. -/
theorem Request.Answered.gives {c : Request} {deed : Act c.Answer} {p : c.Answer → Prop}
    {x : c.Answer} (hc : c.Answered h (.ok x) h') (hdeed : c.deed? = some deed)
    (hp : deed.Gives p) : p x :=
  hp _ _ _ (hc deed hdeed)

theorem beginStatement_plain (scope : ScopeId) (around : Option Statement) (words : Name)
    (line : Nat) : (beginStatement scope around words line).Only Request.IsPlain :=
  .bind (.ask trivial) fun _ => .bind (.ask trivial) fun _ => .ask trivial

/-- A statement that is begun has the words and the line. -/
theorem head_of_beginStatement {scope : ScopeId} {around : Option Statement} {words : Name}
    {line : Nat} {statement : Statement}
    (hbegin : (beginStatement scope around words line).Performs h log (.ok statement) h') :
    statement.head = (words, line) := by
  obtain ⟨verb, h₁, _, _, -, hbegin, -⟩ := Calls.performs_bind_ok.mp hbegin
  obtain ⟨event, h₂, _, _, hevent, hbuild, -⟩ := Calls.performs_bind_ok.mp hbegin
  have hname := (Calls.performs_ask.mp hevent).1.gives rfl (Act.makeEvent_gives words scope)
  have hphrase := (Calls.performs_ask.mp hbuild).1.gives rfl (Act.build_gives ⟨verb, event, line⟩)
  rw [Statement.head, hphrase, hname]

theorem handTo_plain (parent child : Statement) : (handTo parent child).Only Request.IsPlain := by
  rw [handTo]
  split <;> exact .ask trivial

/-- A statement keeps its phrase when another one is handed to it. -/
theorem phrase_of_handTo {parent child s : Statement}
    (hhand : (handTo parent child).Performs h log (.ok s) h') : s.phrase = parent.phrase := by
  rw [handTo] at hhand
  split at hhand
  · exact (Calls.performs_ask.mp hhand).1.gives rfl (Act.applyTo_gives parent child)
  · exact (Calls.performs_ask.mp hhand).1.gives rfl (.ofExcept fun _ => Statement.phrase_add)

/-- Outside all blocks no statement is immediate that can stand there. -/
theorem later_of_checkPlace {statement : Statement} {x : Unit}
    (hcheck : (Request.ask (.checkPlace none statement)).Performs h log (.ok x) h') :
    statement.verb.immediate = false := by
  have htest : (Act.ofExcept (Request.testPlace none statement.verb)).Gives
      fun _ => statement.verb.immediate = false := by
    refine .ofExcept fun _ htest => ?_
    rw [Request.testPlace] at htest
    split at htest
    · cases htest
    · next himmediate => exact Bool.eq_false_iff.mpr himmediate
  exact (Calls.performs_ask.mp hcheck).1.gives rfl htest

theorem simpleStatement_plain (scope : ScopeId) (around : Option Statement) (words : Name)
    (line : Nat) : (simpleStatement scope around words line).Only Request.IsPlain :=
  .bind (beginStatement_plain ..) fun _ => .bind (.ask trivial) fun _ => trivial

theorem openStatement_quiet (scope : ScopeId) (around : Option Statement) (words : Name)
    (line : Nat) : (openStatement scope around words line).Only Request.IsQuiet :=
  .bind ((beginStatement_plain ..).mono Request.IsPlain.isQuiet) fun _ =>
    .bind (.ask trivial) fun _ => .bind (.ask trivial) fun _ => .bind (.ask trivial) fun _ =>
      trivial

/-- A statement that is opened is one that was begun, and could stand where it does. -/
theorem openStatement_ok {scope : ScopeId} {around : Option Statement} {words : Name} {line : Nat}
    {statement : Statement}
    (hopen : (openStatement scope around words line).Performs h log (.ok statement) h') :
    statement.head = (words, line) ∧ (around = none → statement.verb.immediate = false) ∧
      opensOf log = 1 := by
  obtain ⟨statement', h₁, log₁, _, hbegin, hrest₁, rfl⟩ := Calls.performs_bind_ok.mp hopen
  obtain ⟨_, h₂, log₂, _, hblock, hrest₂, rfl⟩ := Calls.performs_bind_ok.mp hrest₁
  obtain ⟨_, h₃, log₃, _, hplace, hrest₃, rfl⟩ := Calls.performs_bind_ok.mp hrest₂
  obtain ⟨_, h₄, log₄, _, hstart, hrest₄, rfl⟩ := Calls.performs_bind_ok.mp hrest₃
  cases hrest₄
  refine ⟨head_of_beginStatement hbegin, ?_, ?_⟩
  · rintro rfl
    exact later_of_checkPlace hplace
  · obtain ⟨-, rfl⟩ := Calls.performs_ask.mp hblock
    obtain ⟨-, rfl⟩ := Calls.performs_ask.mp hplace
    obtain ⟨-, rfl⟩ := Calls.performs_ask.mp hstart
    rw [opensOf_append, opensOf_plain ((beginStatement_plain ..).log hbegin)]
    rfl

/-- Filling a block runs nothing. -/
theorem Script.Forest.fill_quiet (f : Forest) (scope : ScopeId) (parent : Statement) :
    (f.fill scope parent).Only Request.IsQuiet := by
  induction f generalizing parent with
  | nil => trivial
  | simple words line rest ih =>
    exact .bind ((simpleStatement_plain ..).mono Request.IsPlain.isQuiet) fun _ =>
      .bind ((handTo_plain ..).mono Request.IsPlain.isQuiet) fun _ => ih _
  | block words line children last rest ihChildren ihRest =>
    exact .bind (openStatement_quiet ..) fun _ => .bind (ihChildren _) fun _ =>
      .bind (.ask trivial) fun _ => .bind ((handTo_plain ..).mono Request.IsPlain.isQuiet) fun _ =>
        ihRest _

/-- A statement keeps its phrase when its block is filled, and all blocks inside end. -/
theorem Script.Forest.fill_ok {f : Forest} {scope : ScopeId} {parent s : Statement}
    (hfill : (f.fill scope parent).Performs h log (.ok s) h') :
    s.phrase = parent.phrase ∧ opensOf log = 0 := by
  induction f generalizing parent s h log h' with
  | nil =>
    cases hfill
    exact ⟨rfl, rfl⟩
  | simple words line rest ih =>
    obtain ⟨child, h₁, log₁, _, hchild, hrest₁, rfl⟩ := Calls.performs_bind_ok.mp hfill
    obtain ⟨parent', h₂, log₂, _, hhand, hrest₂, rfl⟩ := Calls.performs_bind_ok.mp hrest₁
    obtain ⟨hphrase, hopens⟩ := ih hrest₂
    refine ⟨hphrase.trans (phrase_of_handTo hhand), ?_⟩
    rw [opensOf_append, opensOf_append, opensOf_plain ((simpleStatement_plain ..).log hchild),
      opensOf_plain ((handTo_plain ..).log hhand), hopens]
    rfl
  | block words line children last rest ihChildren ihRest =>
    obtain ⟨child, h₁, log₁, _, hopen, hrest₁, rfl⟩ := Calls.performs_bind_ok.mp hfill
    obtain ⟨child', h₂, log₂, _, hinside, hrest₂, rfl⟩ := Calls.performs_bind_ok.mp hrest₁
    obtain ⟨_, h₃, log₃, _, hend, hrest₃, rfl⟩ := Calls.performs_bind_ok.mp hrest₂
    obtain ⟨parent', h₄, log₄, _, hhand, hrest₄, rfl⟩ := Calls.performs_bind_ok.mp hrest₃
    obtain ⟨-, -, hopened⟩ := openStatement_ok hopen
    obtain ⟨-, hopens₂⟩ := ihChildren hinside
    obtain ⟨hphrase, hopens₅⟩ := ihRest hrest₄
    obtain ⟨-, rfl⟩ := Calls.performs_ask.mp hend
    refine ⟨hphrase.trans (phrase_of_handTo hhand), ?_⟩
    rw [opensOf_append, opensOf_append, opensOf_append, opensOf_append, hopened, hopens₂,
      opensOf_plain ((handTo_plain ..).log hhand), hopens₅]
    rfl

/-- A simple statement is prepared by beginning it. -/
theorem simpleStatement_prepares (scope : ScopeId) (words : Name) (line : Nat) :
    Prepares (simpleStatement scope none words line) words line := by
  refine ⟨(simpleStatement_plain ..).mono Request.IsPlain.isQuiet,
    fun h log statement h' hsimple => ?_⟩
  have hopens := opensOf_plain ((simpleStatement_plain ..).log hsimple)
  obtain ⟨statement', h₁, _, _, hbegin, hrest₁, rfl⟩ := Calls.performs_bind_ok.mp hsimple
  obtain ⟨_, h₂, _, _, hplace, hrest₂, rfl⟩ := Calls.performs_bind_ok.mp hrest₁
  cases hrest₂
  exact ⟨head_of_beginStatement hbegin, later_of_checkPlace hplace, hopens⟩

/-- A statement with a block is prepared by filling its block. -/
theorem block_prepares (scope : ScopeId) (words : Name) (line : Nat) (children : Forest) :
    Prepares (do
      let statement ← openStatement scope none words line
      let statement ← children.fill scope statement
      Request.ask (.endBlock statement)
      pure statement) words line := by
  refine ⟨.bind (openStatement_quiet ..) fun _ => .bind (children.fill_quiet ..) fun _ =>
    .bind (.ask trivial) fun _ => trivial, fun h log statement h' hblock => ?_⟩
  obtain ⟨opened, h₁, log₁, _, hopen, hrest₁, rfl⟩ := Calls.performs_bind_ok.mp hblock
  obtain ⟨filled, h₂, log₂, _, hfill, hrest₂, rfl⟩ := Calls.performs_bind_ok.mp hrest₁
  obtain ⟨_, h₃, log₃, _, hend, hrest₃, rfl⟩ := Calls.performs_bind_ok.mp hrest₂
  cases hrest₃
  obtain ⟨hhead, hlater, hopens⟩ := openStatement_ok hopen
  obtain ⟨hphrase, hopens₂⟩ := Forest.fill_ok hfill
  obtain ⟨-, rfl⟩ := Calls.performs_ask.mp hend
  refine ⟨?_, ?_, ?_⟩
  · rw [Statement.head, hphrase]
    exact hhead
  · rw [Statement.verb, hphrase]
    exact hlater rfl
  · rw [opensOf_append, opensOf_append, hopens, hopens₂]
    rfl

/-- The runs of a forest are those of its statements outside all blocks, in order. -/
theorem Script.Forest.orderly_interpret (f : Forest) (scope : ScopeId)
    {r : Except ScriptError Unit} (hperf : (f.interpret scope).Performs h log r h') :
    Orderly f.heads log r := by
  induction f generalizing h log r h' with
  | nil =>
    cases hperf
    exact ⟨List.prefix_rfl, fun _ => rfl, List.forall_mem_nil _, .of_quiet rfl⟩
  | simple words line rest ih =>
    exact (simpleStatement_prepares scope words line).orderly (fun _ _ _ _ => ih) hperf
  | block words line children last rest _ ih =>
    have hsplit : (interpret scope (.block words line children last rest)) = (do
        let statement ← (do
          let statement ← openStatement scope none words line
          let statement ← children.fill scope statement
          Request.ask (.endBlock statement)
          pure statement)
        let _ ← Request.ask (.run statement)
        rest.interpret scope) := by
      simp only [interpret, bind_assoc, pure_bind]
    rw [hsplit] at hperf
    exact (block_prepares scope words line children).orderly (fun _ _ _ _ => ih) hperf

/-! ### The stack and the recursion -/

namespace Session

/-- A session in which no block is open, with the actions of a forest to be taken. -/
def facing (s : Session) (f : Forest) : Session :=
  { s with blocks := [], actions := f.actions, marks := [] }

/-- The stack of a session does what recursion on the forest does. An action is taken by making its
calls; for the actions of a forest these are the calls of the recursion, in the same order. A
session that goes on with the actions of a forest makes them, up to the first one that fails,
whatever comes of the runs of statements, and the runs are those of the statements outside all
blocks, in order, each once and while no block is open. -/
theorem stack_refines_recursion (s : Session) (f : Forest) :
    (∀ (s : Session) (action : Action), (s.calls action).Does (s.act action)) ∧
    interpretAll f.actions (s.facing .nil) = (do
      f.interpret s.scope
      pure (s.facing .nil)) ∧
    (∀ h log r h', (f.interpret s.scope).Performs h log r h' →
      Orderly f.heads log r ∧
      ∃ s' r', Plays ((s.facing f).resume h) (runsOf log) (h', s', r') ∧
        Ends (r.map fun _ => s.facing .nil) s' r') ∧
    ∀ h runs h' s' r', Plays ((s.facing f).resume h) runs (h', s', r') →
      ∃ log r, (f.interpret s.scope).Performs h log r h' ∧ runsOf log = runs ∧
        Ends (r.map fun _ => s.facing .nil) s' r' := by
  have hsame : interpretAll f.actions (s.facing .nil) = (do
      f.interpret s.scope
      pure (s.facing .nil)) := interpretAll_actions f (s.facing .nil)
  have hrounds : f.actions.length < (s.facing f).rounds := by
    simp only [rounds, facing, List.length_nil]
    omega
  refine ⟨calls_does, hsame, fun h log r h' hperf => ?_, fun h runs h' s' r' hplays => ?_⟩
  · have hall : (interpretAll f.actions (s.facing .nil)).Performs h log
        (r.map fun _ => s.facing .nil) h' := by
      rw [hsame]
      cases r with
      | error e => exact Calls.performs_bind.mpr (.inr ⟨e, hperf, rfl⟩)
      | ok x =>
        exact Calls.performs_bind.mpr
          (.inl ⟨x, h', log, [], hperf, .pure _ h', (List.append_nil log).symm⟩)
    exact ⟨f.orderly_interpret s.scope hperf, exists_plays (s := s.facing f) rfl rfl hrounds hall⟩
  · obtain ⟨log, r₀, hall, hruns, hends⟩ := plays_advance (s := s.facing f) rfl rfl hrounds hplays
    have hall : (interpretAll f.actions (s.facing .nil)).Performs h log r₀ h' := hall
    rw [hsame] at hall
    rcases Calls.performs_bind.mp hall with
      ⟨x, h₁, log₁, log₂, hperf, hpure, rfl⟩ | ⟨e, hperf, rfl⟩
    · cases hpure
      rw [List.append_nil] at hruns
      exact ⟨log₁, .ok x, hperf, hruns, hends⟩
    · exact ⟨log, .error e, hperf, hruns, hends⟩

/-- A statement outside all blocks is run once. -/
theorem stack_refines_recursion_log :
    ∃ h log h',
      (Forest.interpret ⟨0⟩ (.simple [.text "log"] 1 .nil)).Performs h log (.ok ()) h' ∧
      (runsOf log).map (fun run => run.statement.head) = [([.text "log"], 1)] := by
  let verb : Verb := ⟨[.text "log"], "", none, false, .none, .any, none, .log⟩
  let h : House := { House.empty .standard ⟨0⟩ with common := ⟨"main", [(verb.name, verb)]⟩ }
  let s : Session := .start .script ⟨0⟩
  have hresume : ∃ h₁ s₁ statement,
      (s.facing (.simple [.text "log"] 1 .nil)).resume h = (h₁, s₁, .run statement) ∧
        s₁.resume h₁ = (h₁, s₁, .ready) := ⟨_, _, _, rfl, rfl⟩
  obtain ⟨h₁, s₁, statement, hrun, hready⟩ := hresume
  have hplays : Plays ((s.facing (.simple [.text "log"] 1 .nil)).resume h)
      [⟨statement, h₁, .ok .done, h₁⟩] (h₁, s₁, .ok ()) := by
    rw [hrun]
    refine .run ?_
    rw [afterRun, hready]
    exact .ready h₁ s₁
  obtain ⟨log, r, hperf, hruns, hends⟩ :=
    (stack_refines_recursion s (.simple [.text "log"] 1 .nil)).2.2.2 _ _ _ _ _ hplays
  cases r with
  | error e =>
    obtain ⟨line, hline⟩ := hends
    cases hline
  | ok x =>
    exact ⟨h, log, h₁, hperf, ((stack_refines_recursion s _).2.2.1 _ _ _ _ hperf).1.all rfl⟩

end Session

end Hearth

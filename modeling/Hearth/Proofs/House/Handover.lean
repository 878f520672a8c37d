import Hearth.Proofs.Failure
import Hearth.Proofs.Registry.Ledger

/-!
# Failures are handed over once

Failures come up, are wrapped and unwrapped, marked and handed over, and meanwhile workers come and
go. As long as no failure of a chain was marked or handed over, handing over any of them calls every
worker that catches it, in order, and whatever one of these workers does, the next one is called.
After that nothing happens any more, whichever failure of the chain is handed over again.

## Main definitions

* `Desk`, `Desk.Task`, `Desk.perform` : a house and the chains of failures that came up in it, and
  what can be done with them.
* `Heard` : a failure was handed to the workers that catch it.

## Main results

* `House.heard_dispatchFailure` : what happens when a failure is handed over that was not marked.
* `Desk.tracked_perform` : a chain keeps its root, and its mark tells whether it was settled.
* `Desk.handOver_once` : a chain is handed over at most once.
-/

namespace Hearth

/-! ### What workers are told -/

/-- The failure that a note is about: the probe that was called, and the text. -/
def Note.caught? : Note → Option (Name × String)
  | .caught worker text => some (worker, text)
  | _ => none

/-- What a worker notes of a failure with this text. -/
def Worker.caught? (text : String) : Worker → Option (Name × String)
  | .probe p => some (p.name, text)
  | _ => none

namespace House

variable (h : House) (f : Failure)

/-- The failures that were noted in a house, in order. -/
def caught : List (Name × String) := (h.journal.filterMap Note.caught?).reverse

theorem caught_logAll (level : Level) (texts : List String) :
    (h.logAll level texts).caught = h.caught := by
  rw [logAll]
  generalize h.log.writeAll level texts = written
  obtain ⟨log, out⟩ := written
  change (out.foldl _ { h with log }).caught = { h with log }.caught
  generalize { h with log } = h
  -- The sinks write lines of the log and diagnostics, which are about no failure.
  induction out generalizing h with
  | nil => rfl
  | cons l out ih =>
    rw [List.foldl_cons, ih]
    cases l <;> rfl

theorem caught_processFailure (w : Worker) :
    (h.processFailure f w).caught = h.caught ++ (w.caught? f.message).toList := by
  cases w with
  | failureLog p => exact (h.caught_logAll _ _).trans (List.append_nil _).symm
  | probe p => exact List.reverse_cons
  | _ => exact (List.append_nil _).symm

theorem caught_foldl (workers : List Registered) :
    (workers.foldl (fun h x => h.processFailure f x.worker) h).caught =
      h.caught ++ workers.filterMap (·.worker.caught? f.message) := by
  induction workers generalizing h with
  | nil => exact (List.append_nil _).symm
  | cons x workers ih =>
    rw [List.foldl_cons, ih, caught_processFailure, List.append_assoc, List.filterMap_cons]
    cases x.worker.caught? f.message <;> rfl

/-- A failure is marked when it is handed over, if it was not before. -/
theorem marked_dispatchFailure : (h.dispatchFailure f).2 = f.marked := by
  rw [dispatchFailure]
  split
  · next hf => exact (Failure.marked_of_isHandled hf).symm
  · rfl

theorem registry_dispatchFailure : (h.dispatchFailure f).1.registry = h.registry :=
  congrArg (·.registry) (h.stays_dispatchFailure f).bare

end House

/-- A failure was handed over: those who catch it were called in order, each once, and each probe
among them noted it. -/
structure Heard (before : House) (f : Failure) (called : List Registered) (after : House) :
    Prop where
  complete : ∀ x, x ∈ called ↔ x ∈ before.registry.workers ∧ x.worker.catches f.message = true
  ordered : called.Pairwise Registered.Precedes
  distinct : (called.map (·.id)).Nodup
  processed : after = called.foldl (fun h x => h.processFailure f x.worker) before
  noted : after.caught = before.caught ++ called.filterMap (·.worker.caught? f.message)

/-- A failure that was not marked is handed to every worker that catches it. -/
theorem House.heard_dispatchFailure {bands : Bands} {h : House}
    (hr : Registry.Built bands h.registry) {f : Failure} (hf : f.isHandled = false) :
    Heard h f (h.registry.workers.filter (·.worker.catches f.message)) (h.dispatchFailure f).1 := by
  have hprocessed : (h.dispatchFailure f).1 =
      (h.registry.workers.filter (·.worker.catches f.message)).foldl
        (fun h x => h.processFailure f x.worker) h := by
    rw [dispatchFailure, hf]
    change ((h.registry.workers.map (·.worker)).filter fun w => w.catches f.message).foldl _ _ = _
    rw [List.filter_map, List.foldl_map]
    rfl
  constructor
  · exact fun x => List.mem_filter
  · exact hr.ordered.sorted.filter _
  · exact hr.distinct.sublist (List.filter_sublist.map _)
  · exact hprocessed
  · rw [hprocessed, caught_foldl]

/-! ### What is done with failures -/

/-- A house, and the chains of failures that came up in it. -/
structure Desk where
  house : House
  /-- The outermost failure of every chain. -/
  failures : List Failure

/-- An error that holds no failure. -/
abbrev OwnError := { error : WorkError // error.root? = none }

namespace Desk

/-- Something that is done. A chain is told by its place among those that came up, and a failure in
it by its depth. -/
inductive Task where
  /-- An error becomes a failure. -/
  | fail (error : OwnError)
  | wrap (i : Nat) (report : List String)
  | unwrap (i : Nat)
  /-- The outermost failure is described anew. -/
  | describe (i : Nat) (report : List String)
  | mark (i depth : Nat)
  | handOver (i depth : Nat)
  /-- Workers come or go. -/
  | call (c : Registry.Call)
  /-- Anything else happens in the house. -/
  | meanwhile (change : House → House)

/-- Is a chain marked or handed over? -/
def Task.settles (i : Nat) : Task → Bool
  | .mark j _ => j == i
  | .handOver j _ => j == i
  | _ => false

/-- What is done. -/
def perform (d : Desk) : Task → Desk
  | .fail error => { d with failures := d.failures ++ [.ofError error] }
  | .wrap i report => { d with failures := d.failures.modify i (·.wrap report) }
  | .unwrap i => { d with failures := d.failures.modify i (·.unwrap) }
  | .describe i report => { d with failures := d.failures.modify i (·.inside report) }
  | .mark i depth =>
    { d with failures := d.failures.modify i fun f => .replace (f.member depth).marked depth f }
  | .handOver i depth =>
    { house := d.failures[i]?.elim d.house fun f => (d.house.dispatchFailure (f.member depth)).1
      failures := d.failures.modify i fun f =>
        .replace (d.house.dispatchFailure (f.member depth)).2 depth f }
  | .call c => { d with house := (c.act.runOn d.house).2 }
  | .meanwhile change => { d with house := { change d.house with registry := d.house.registry } }

/-- What is done one after the other. -/
def run (tasks : List Task) (d : Desk) : Desk := tasks.foldl perform d

/-- A house without workers in which nothing failed. -/
def opened (bands : Bands) (h : House) : Desk := ⟨{ h with registry := .empty bands }, []⟩

variable {d : Desk} {i : Nat} {f : Failure}

/-! ### Steps -/

/-- Marking a failure of a chain marks the chain. -/
theorem failures_mark (depth : Nat) :
    (d.perform (.mark i depth)).failures = d.failures.modify i (·.marked) := by
  have hmarked (f : Failure) : .replace (f.member depth).marked depth f = f.marked :=
    f.replace_marked depth
  rw [perform, funext hmarked]

/-- Handing over a failure of a chain marks the chain. -/
theorem failures_handOver (depth : Nat) :
    (d.perform (.handOver i depth)).failures = d.failures.modify i (·.marked) := by
  have hmarked (f : Failure) :
      .replace (d.house.dispatchFailure (f.member depth)).2 depth f = f.marked := by
    rw [House.marked_dispatchFailure, Failure.replace_marked]
  rw [perform, funext hmarked]

/-- A failure of a chain that is marked is handed over, and nothing happens. -/
theorem perform_handOver_of_handled (hf : d.failures[i]? = some f) (hs : f.isHandled = true)
    (depth : Nat) : d.perform (.handOver i depth) = d := by
  have hmember : (f.member depth).isHandled = true := (f.isHandled_member depth).trans hs
  have hhouse : (d.perform (.handOver i depth)).house = d.house := by
    rw [perform, hf]
    change (d.house.dispatchFailure (f.member depth)).1 = d.house
    rw [House.dispatchFailure, if_pos hmember]
  have hfailures : (d.perform (.handOver i depth)).failures = d.failures := by
    rw [failures_handOver]
    obtain ⟨hi, rfl⟩ := List.getElem?_eq_some_iff.mp hf
    rw [List.modify_eq_set, hf]
    change d.failures.set i d.failures[i].marked = d.failures
    rw [Failure.marked_of_isHandled hs, List.set_getElem_self]
  exact congrArg₂ Desk.mk hhouse hfailures

/-- The registry comes about by calls. -/
theorem built_perform {bands : Bands} (hd : Registry.Built bands d.house.registry) (x : Task) :
    Registry.Built bands (d.perform x).house.registry := by
  cases x with
  | handOver i depth =>
    rw [perform]
    cases d.failures[i]? with
    | none => exact hd
    | some f => exact (d.house.registry_dispatchFailure (f.member depth)).symm ▸ hd
  | call c => exact hd.call c
  | _ => exact hd

/-- What becomes of a chain when something is done to a chain. -/
theorem core_modify (hf : d.failures[i]? = some f) {g : Failure → Failure} {settled : Bool}
    (hg : (g f).core = (f.isHandled || settled, f.root.error)) (j : Nat) :
    ∃ f', (d.failures.modify j g)[i]? = some f' ∧
      f'.core = (f.isHandled || (settled && j == i), f.root.error) := by
  rw [List.getElem?_modify, hf]
  refine ⟨_, rfl, ?_⟩
  dsimp only
  by_cases hij : j = i
  · rw [if_pos hij, hg, hij, beq_self_eq_true, Bool.and_true]
  · rw [if_neg hij, beq_false_of_ne hij, Bool.and_false, Bool.or_false]
    rfl

/-- A chain keeps its root, and its mark tells whether it was settled. -/
theorem tracked_perform (hf : d.failures[i]? = some f) (x : Task) :
    ∃ f', (d.perform x).failures[i]? = some f' ∧
      f'.core = (f.isHandled || x.settles i, f.root.error) := by
  -- Only marking and handing over change the mark, and whatever failure of the chain they are
  -- done to, it is the chain that is marked.
  have hsame : f.core = (f.isHandled || false, f.root.error) :=
    Prod.ext (Bool.or_false _).symm rfl
  have hmarked : f.marked.core = (f.isHandled || true, f.root.error) :=
    f.core_marked.trans (Prod.ext (Bool.or_true _).symm rfl)
  cases x with
  | fail error =>
    have hi := (List.getElem?_eq_some_iff.mp hf).1
    exact ⟨f, (List.getElem?_append_left hi).trans hf, hsame⟩
  | wrap j report => exact core_modify hf ((f.core_wrap report).trans hsame) j
  | unwrap j => exact core_modify hf (f.core_unwrap.trans hsame) j
  | describe j report => exact core_modify hf ((f.core_inside report).trans hsame) j
  | mark j depth =>
    rw [failures_mark]
    exact core_modify hf hmarked j
  | handOver j depth =>
    rw [failures_handOver]
    exact core_modify hf hmarked j
  | call c => exact ⟨f, hf, hsame⟩
  | meanwhile change => exact ⟨f, hf, hsame⟩

/-! ### Runs -/

theorem built_run {bands : Bands} (tasks : List Task)
    (hd : Registry.Built bands d.house.registry) :
    Registry.Built bands (d.run tasks).house.registry := by
  induction tasks generalizing d with
  | nil => exact hd
  | cons x tasks ih => exact ih (built_perform hd x)

theorem tracked_run (tasks : List Task) (hf : d.failures[i]? = some f) :
    ∃ f', (d.run tasks).failures[i]? = some f' ∧
      f'.core = (f.isHandled || tasks.any (·.settles i), f.root.error) := by
  induction tasks generalizing d f with
  | nil => exact ⟨f, hf, Prod.ext (Bool.or_false _).symm rfl⟩
  | cons x tasks ih =>
    obtain ⟨f₁, hf₁, hcore₁⟩ := tracked_perform hf x
    obtain ⟨f₂, hf₂, hcore₂⟩ := ih hf₁
    obtain ⟨hhandled, hroot⟩ := Prod.ext_iff.mp hcore₁
    refine ⟨f₂, hf₂, hcore₂.trans (Prod.ext ?_ hroot)⟩
    change (f₁.isHandled || _) = _
    rw [show f₁.isHandled = _ from hhandled, List.any_cons, Bool.or_assoc]

/-- A chain of failures is handed over once. Whatever happened before an error came up, and whatever
happens since, every worker that catches it is called if any failure of its chain is handed over,
unless one of them was marked or handed over since; then nothing happens any more. -/
theorem handOver_once (bands : Bands) (h : House) (before since : List Task) (error : OwnError)
    (depth : Nat) :
    let first := (opened bands h).run before
    let d := (first.perform (.fail error)).run since
    let i := first.failures.length
    ∃ f, d.failures[i]? = some f ∧ f.root.error = error ∧
      if since.any (·.settles i) then d.perform (.handOver i depth) = d
      else
        ∃ called, Heard d.house (f.member depth) called (d.perform (.handOver i depth)).house := by
  intro first d i
  have hfailed : (first.perform (.fail error)).failures[i]? = some (.ofError error) :=
    List.getElem?_concat_length
  obtain ⟨f, hf, hcore⟩ := tracked_run since hfailed
  obtain ⟨hhandled, hroot⟩ := Prod.ext_iff.mp hcore
  have hfresh : (Failure.ofError error).isHandled = false := Failure.isHandled_of_own error.2 ..
  rw [hfresh, Bool.false_or] at hhandled
  have herror : (Failure.ofError error).root.error = error := by
    rw [Failure.ofError, Failure.root_of_own error.2]
    rfl
  refine ⟨f, hf, hroot.trans herror, ?_⟩
  cases hsettled : since.any (·.settles i) with
  | true => exact perform_handOver_of_handled hf (hhandled.trans hsettled) depth
  | false =>
    have hbuilt : Registry.Built bands d.house.registry :=
      built_run since (built_perform (built_run before .empty) _)
    have hmember := (f.isHandled_member depth).trans (hhandled.trans hsettled)
    have hheard := House.heard_dispatchFailure hbuilt hmember
    change ∃ called, Heard _ _ called (d.failures[i]?.elim _ _)
    rw [hf]
    exact ⟨_, hheard⟩

/-- Both workers are called once, the one that fails as well. -/
example :
    let catcher name priority fault : Worker :=
      .probe ⟨[.text name], priority, .never, none, none, .done, none, .always, fault, [], false⟩
    ((opened .standard default).run [
      .call (.register (catcher "first" (-8) (some "broken"))),
      .call (.register (catcher "second" (-9) none)),
      .fail ⟨.other "bad", rfl⟩, .wrap 0 ["one"], .wrap 0 ["two"],
      .handOver 0 1, .handOver 0 0]).house.caught =
    [([.text "second"], "bad"), ([.text "first"], "bad")] := by
  rfl

end Desk

end Hearth

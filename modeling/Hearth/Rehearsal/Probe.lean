import Hearth.Json.Read
import Hearth.Module
import Hearth.Rehearsal.Form
import Hearth.Worker

/-!
# Probes described in JSON

Workers and verbs that stand in for real ones, and do as told. A probe may contain others; JSON that
was read nests at most `Json.maxDepth` deep, which bounds how deep they can be.
-/

namespace Hearth

open Json

namespace ProbeWorker

/-- A worker that is described at most so deep. -/
def ofJsonWithin : Nat → Json → Except String ProbeWorker
  | 0, _ => .error "worker"
  | depth + 1, j => do
    let steps : Option (List Json) ← j.opt "steps"
    return {
      name := ← j.need "name"
      priority := ← j.need "prio"
      matching := ←
        match j.field? "match" with
        | none => pure .always
        | some (.bool false) => pure .never
        | some v => ProbeMatch.pattern <$> the "match" v
      raises := ← j.opt "raise"
      fault := ← j.opt "fail"
      flow := ← j.getD "flow" .done
      steps := ← steps.mapM fun steps => do
        return (← steps.mapM (ofJsonWithin depth), ← j.flag "conditional")
      catching :=
        match j.field? "catch" with
        | some (.bool true) => .always
        | some (.str t) => .containing t
        | _ => .never
      catchFault := ← j.opt "catch_fail"
      notes := ← j.getD "report" []
      terse := ← j.flag "terse" }

/-- The worker that is described. -/
def ofJson (j : Json) : Except String ProbeWorker := ofJsonWithin Json.maxDepth j

end ProbeWorker

namespace Verb

/-- The block of a verb that is described. -/
def blockOf : Option Json → BlockKind
  | some (.str "statements") => .statements
  | some (.str "attributes") => .attributes
  | _ => .none

/-- The role of a verb that is described. -/
def roleOf : Option Json → ProbeRole
  | some (.str "collect") => .collect
  | some (.str "label") => .label
  | _ => .plain

/-- The fault of a verb that is described. -/
def faultOf : Option String → ProbeFault
  | none => .never
  | some "usage" => .usage
  | some t => .with t

/-- A verb that is described at most so deep. -/
def ofJsonWithin : Nat → Json → Except String Verb
  | 0, _ => .error "words"
  | depth + 1, j => do
    let name : Name ← j.need "name"
    let words : Option (List Json) ← j.opt "words"
    let least : Option Nat ← j.opt "min_args"
    let probe : ProbeDeed := {
      role := roleOf (j.field? "type")
      buildFault := ← j.opt "build_fail"
      startFault := ← j.opt "start_fail"
      endFault := ← j.opt "end_fail"
      fault := faultOf (← j.opt "fail")
      flow := ← j.getD "flow" .done }
    let verb : Verb := {
      name
      doc := ← j.getD "doc" "test word"
      longDoc := ← j.opt "long_doc"
      immediate := ← j.flag "immediate"
      block := blockOf (j.field? "block")
      arity := least.elim .any .atLeast
      inner := none
      deed := .probe probe }
    match words with
    | none => return verb
    | some words =>
      return verb.withInner name.render (← j.flag "fallback") (← words.mapM (ofJsonWithin depth))

/-- The verb that is described. -/
def ofJson (j : Json) : Except String Verb := ofJsonWithin Json.maxDepth j

end Verb

end Hearth

import Hearth.Proofs.Session.Origins
import Hearth.Proofs.Strand.Lineless

/-!
# The line of an error

The error that a text ends with names a line. That is the line of the words that failed, with two
exceptions. A statement whose block stands below its line gets the number of the line that is read
when the block begins, or ends. A later branch of an `if` gets the number of the `if`.

## Main definitions

* `Strand.Blames` : a statement of a text fails, and the error names a line.
* `Strand.BlamesFirst` : a later branch of an `if` fails, and the error names the line of the `if`.

## Main results

* `Strand.Blames.line` : which line the error names.
* `Strand.text_error_line_iff` : the errors of a text.
* `Strand.unknown_words_elsewhere` : two texts whose errors do not name the line of the words.
-/

namespace Hearth.Strand

open Script

/-- What a session is given for a text. -/
def textInputs (lines : List String) : List Input := lines.map .line ++ [.finish]

section

variable (job : Link.JobId) (base : List Frame) (mode : Mode) (scope : ScopeId)
  (lines : List String) (h₀ : House)

/-- A statement of a text fails: its words, the line that they stand on, the line that the error
names, and what it fails with. -/
inductive Blames : Name → Nat → Nat → ScriptError → Prop
  /-- It cannot be begun, or cannot stand where it does. -/
  | begun {h h' : House} {s : Session} {rest : List Input} {action : Action}
    {actions : List Action} {words : Name} {written line : Nat} {cause : ScriptError}
    (hs : Gets job base mode scope (textInputs lines) h₀ h s rest)
    (hactions : s.actions = action :: actions)
    (haction : action = .simple words line ∨ action = .opened words line)
    (hrun : (Session.act { s with actions } action).runOn h = (.error cause, h'))
    (hstands : Stands lines words written line)
    (hsimple : action = .simple words line → written = line) :
    Blames words written line cause
  /-- Its block cannot end, or it cannot stand where it does. -/
  | ended {h h' : House} {s : Session} {rest : List Input} {actions : List Action}
    {b : Statement} {blocks : List Statement} {written line : Nat} {cause : ScriptError}
    (hs : Gets job base mode scope (textInputs lines) h₀ h s rest)
    (hactions : s.actions = .closed line :: actions) (hblocks : s.blocks = b :: blocks)
    (hrun : (Session.act { s with actions } (.closed line)).runOn h = (.error cause, h'))
    (hstands : Here lines b.phrase.event.name line ∧ written = line ∨
      b.phrase.line ≤ line ∧ Above lines b.phrase.event.name written b.phrase.line) :
    Blames b.phrase.event.name written line cause
  /-- It is run, by itself or in a block, and fails. -/
  | ran {h h₁ : House} {s s' : Session} {rest : List Input} {action : Action}
    {actions : List Action} {statement x : Statement} {blocks : List Block} {written : Nat}
    {cause : ScriptError} (hs : Gets job base mode scope (textInputs lines) h₀ h s rest)
    (hactions : s.actions = action :: actions)
    (hrun : (Session.act { s with actions } action).runOn h = (.ok (s', some statement), h₁))
    (hfails : FailsAt job (.session s' statement rest .script :: base)
      ⟨.session s' statement rest .script :: base, .call (.statement statement s'.scope)⟩ h₁
      blocks x cause)
    (hculprit : Culprit statement blocks x x) (hstands : x.phrase.StandsOn lines written) :
    Blames x.phrase.event.name written x.phrase.line cause

/-- The condition of a later branch of an `if` fails: its words, the line that they stand on, the
line that the error names, which is that of the `if`, and what it fails with. -/
inductive BlamesFirst : Name → Nat → Nat → ScriptError → Prop
  | ran {h h₁ : House} {s s' : Session} {rest : List Input} {action : Action}
    {actions : List Action} {statement x y : Statement} {blocks : List Block}
    {written first : Nat} {cause : ScriptError}
    (hs : Gets job base mode scope (textInputs lines) h₀ h s rest)
    (hactions : s.actions = action :: actions)
    (hrun : (Session.act { s with actions } action).runOn h = (.ok (s', some statement), h₁))
    (hfails : FailsAt job (.session s' statement rest .script :: base)
      ⟨.session s' statement rest .script :: base, .call (.statement statement s'.scope)⟩ h₁
      blocks x cause)
    (hculprit : Culprit statement blocks x y) (hlater : x ≠ y)
    (hstands : x.phrase.StandsOn lines written) (hfirst : y.phrase.StandsOn lines first) :
    BlamesFirst x.phrase.event.name written y.phrase.line cause

end

variable {job : Link.JobId} {base : List Frame} {mode : Mode} {scope : ScopeId}
  {lines : List String} {h₀ h h' : House} {s : Session} {rest : List Input} {words : Name}
  {written carried : Nat} {e cause : ScriptError}

/-- The first input of a text is its first line, or its end. -/
theorem textInputs_eq_cons {i : Input} (h : textInputs lines = i :: rest) :
    (∃ text more, lines = text :: more ∧ i = .line text ∧ rest = textInputs more) ∨
      lines = [] ∧ i = .finish ∧ rest = [] := by
  cases lines with
  | nil =>
    obtain ⟨rfl, rfl⟩ := List.cons.inj h
    exact .inr ⟨rfl, rfl, rfl⟩
  | cons text more =>
    obtain ⟨rfl, rfl⟩ := List.cons.inj h
    exact .inl ⟨text, more, rfl, rfl, rfl⟩

/-- The statements of a session are written in the text, and what is left of it is not read yet. -/
theorem Gets.traced (hs : Gets job base mode scope (textInputs lines) h₀ h s rest) :
    s.Traced lines ∧ (rest = textInputs (lines.drop s.layout.line) ∨ rest = []) := by
  generalize hinputs : textInputs lines = inputs at hs
  induction hs with
  | start => exact ⟨.start lines mode scope, .inl hinputs.symm⟩
  | @take h s v i rest hs hactions hmarks hgiven ih =>
    obtain ⟨htraced, hleft | hleft⟩ := ih
    · obtain ⟨text, more, hdrop, rfl, rfl⟩ | ⟨-, rfl, rfl⟩ := textInputs_eq_cons hleft.symm
      · have htext : lines[s.layout.line]? = some text := by
          rw [← List.head?_drop, hdrop]
          rfl
        have hline := Session.line_of_given hgiven
        refine ⟨htraced.given hactions hmarks (fun text' h => ?_) hgiven, .inl ?_⟩
        · cases h
          exact htext
        · rw [hline, ← List.tail_drop, hdrop]
          rfl
      · refine ⟨htraced.given hactions hmarks (fun text h => ?_) hgiven, .inr rfl⟩
        cases h
    · cases hleft
  | read hs hactions hmarks hfeed ih => exact ⟨ih.1.read hactions hmarks hfeed, ih.2⟩
  | @act h h' s s' rest action actions hs hactions hrun ih
  | @ran h h' h₂ s s' rest action actions statement tr flow hs hactions hrun hwalk ih =>
    have hlayout : s'.layout = s.layout := by
      obtain ⟨blocks, rfl, -⟩ := Session.act_blocks hrun
      rfl
    exact ⟨(ih.1.act hactions hrun).1, hlayout ▸ ih.2⟩

/-! ### Which line an error names -/

/-- The words of a phrase stand on its line, or end the line above that. -/
theorem line_of_stands {line : Nat} (hstands : Stands lines words written line) :
    line = written ∨ LineHas lines written (lexemes words ++ [.colon]) ∧ written < line := by
  cases hstands with
  | here => exact .inl rfl
  | above habove => exact .inr ⟨habove.header, habove.lt⟩

/-- The error names the line that the words stand on, or a later one if their block stands below
that. -/
theorem Blames.line (hb : Blames job base mode scope lines h₀ words written carried cause) :
    carried = written ∨
      LineHas lines written (lexemes words ++ [.colon]) ∧ written < carried := by
  cases hb with
  | begun hs hactions haction hrun hstands hsimple => exact line_of_stands hstands
  | ended hs hactions hblocks hrun hstands =>
    rcases hstands with ⟨-, rfl⟩ | ⟨hle, habove⟩
    · exact .inl rfl
    · exact .inr ⟨habove.header, habove.lt.trans_le hle⟩
  | ran hs hactions hrun hfails hculprit hstands => exact line_of_stands hstands.stands

/-! ### The errors of a text -/

theorem FailsAt.isLineless {t : State} {blocks : List Block} {x : Statement}
    (hf : FailsAt job base t h blocks x cause) : cause.isLineless = true := by
  obtain ⟨tr, scope, h₁, h₂, -, halone⟩ := hf
  exact halone.isLineless

/-- What a statement fails with has no line yet. -/
theorem Blames.isLineless
    (hb : Blames job base mode scope lines h₀ words written carried cause) :
    cause.isLineless = true := by
  cases hb with
  | @begun h h' s rest action actions _ _ _ _ hs hactions haction hrun =>
    refine (Session.lineless_act { s with actions } ?_ h).1 cause (congrArg Prod.fst hrun)
    rintro line rfl
    rcases haction with haction | haction <;> cases haction
  | @ended h h' s rest actions b blocks _ _ _ hs hactions hblocks hrun =>
    refine (Session.lineless_act { s with actions } (fun _ _ => ?_) h).1 cause
      (congrArg Prod.fst hrun)
    exact hblocks ▸ List.cons_ne_nil b blocks
  | ran hs hactions hrun hfails => exact hfails.isLineless

theorem BlamesFirst.isLineless
    (hb : BlamesFirst job base mode scope lines h₀ words written carried cause) :
    cause.isLineless = true := by
  obtain ⟨hs, hactions, hrun, hfails⟩ := hb
  exact hfails.isLineless

/-- An action that fails fails with its statement. -/
theorem blames_of_act {h' : House} {action : Action} {actions : List Action}
    (hs : Gets job base mode scope (textInputs lines) h₀ h s rest)
    (hactions : s.actions = action :: actions)
    (hrun : (Session.act { s with actions } action).runOn h = (.error cause, h')) :
    ∃ words written,
      Blames job base mode scope lines h₀ words written s.layout.line cause := by
  have htraced := hs.traced.1
  have hbegun {words : Name} {line : Nat}
      (haction : action = .simple words line ∨ action = .opened words line) :
      ∃ words written, Blames job base mode scope lines h₀ words written s.layout.line cause := by
    obtain ⟨rfl, written, hstands, hsimple⟩ := htraced.begins hactions haction
    exact ⟨words, written, .begun hs hactions haction hrun hstands hsimple⟩
  cases action with
  | simple words line => exact hbegun (.inl rfl)
  | opened words line => exact hbegun (.inr rfl)
  | closed line =>
    obtain ⟨final, hmid⟩ := hs.midway
    obtain ⟨b, blocks, hblocks⟩ := List.exists_cons_of_ne_nil (hmid.blocks_ne_nil hactions)
    obtain ⟨rfl, ⟨hhere, -⟩ | ⟨hle, written, habove⟩⟩ := htraced.ends hactions hblocks
    · exact ⟨_, _, .ended hs hactions hblocks hrun (.inl ⟨hhere, rfl⟩)⟩
    · exact ⟨_, _, .ended hs hactions hblocks hrun (.inr ⟨hle, habove⟩)⟩

/-- A statement that is run fails with one of those in it. -/
theorem blames_of_run {h₁ h₂ : House} {s' : Session} {action : Action} {actions : List Action}
    {statement : Statement} {tr : List Ended}
    (hs : Gets job base mode scope (textInputs lines) h₀ h s rest)
    (hactions : s.actions = action :: actions)
    (hrun : (Session.act { s with actions } action).runOn h = (.ok (s', some statement), h₁))
    (hwalk : Walk job (.session s' statement rest .script :: base)
      ⟨.session s' statement rest .script :: base, .call (.statement statement s'.scope)⟩ h₁ tr
      (.error e) h₂) :
    ∃ words written carried cause,
      (Blames job base mode scope lines h₀ words written carried cause ∨
        BlamesFirst job base mode scope lines h₀ words written carried cause) ∧
      e.atLineOnce statement.phrase.line = cause.atLineOnce carried := by
  obtain ⟨blocks, x, y, cause, hfails, hculprit, rfl⟩ := owed_statement statement hwalk
  rw [escaped_atLineOnce, hculprit.headD_line]
  have hin := (hs.traced.1.act hactions hrun).2 statement rfl
  obtain ⟨first, hfirst⟩ := hin y.phrase (hculprit.inside y.phrase_mem_phrases)
  by_cases hxy : x = y
  · subst hxy
    exact ⟨_, _, _, cause, .inl (.ran hs hactions hrun hfails hculprit hfirst), rfl⟩
  · have hinside := Statement.phrases_subset_of_branches y hculprit.branch
    obtain ⟨written, hstands⟩ := hin x.phrase (hculprit.inside (hinside x.phrase_mem_phrases))
    exact ⟨_, _, _, cause, .inr (.ran hs hactions hrun hfails hculprit hxy hstands hfirst), rfl⟩

/-- A strand that comes to a statement that fails by itself makes its text fail. -/
theorem stops_of_failsAt {h₁ : House} {s' : Session} {action : Action} {actions : List Action}
    {statement x y : Statement} {blocks : List Block} {inputs : List Input}
    (hs : Gets job base mode scope inputs h₀ h s rest)
    (hactions : s.actions = action :: actions)
    (hrun : (Session.act { s with actions } action).runOn h = (.ok (s', some statement), h₁))
    (hfails : FailsAt job (.session s' statement rest .script :: base)
      ⟨.session s' statement rest .script :: base, .call (.statement statement s'.scope)⟩ h₁
      blocks x cause)
    (hculprit : Culprit statement blocks x y) :
    Stops job base mode scope inputs h₀ (cause.atLineOnce y.phrase.line) := by
  obtain ⟨tr, h₂, hwalk⟩ := hfails.walk
  rw [← hculprit.headD_line, ← escaped_atLineOnce]
  exact .run hs hactions hrun hwalk

/-- A text ends with an error exactly if a line or a mark of it is a fault, or one of its statements
fails. The error then names the line that the words of the statement stand on, unless their block
stands below that line, which is an earlier one then, or they are a later branch of an `if`, whose
line it is then. -/
theorem text_error_line_iff (job : Link.JobId) (base : List Frame) (mode : Mode)
    (scope : ScopeId) (lines : List String) (h : House) :
    (∀ e, (∃ tr h', Walk job base
        ⟨base, .call (.session (.start mode scope) (textInputs lines) .script)⟩ h tr (.error e)
        h') ↔
      (∃ line fault, Misread job base mode scope (textInputs lines) h line fault ∧
        e = .malformed line fault) ∨
      ∃ words written carried cause,
        (Blames job base mode scope lines h words written carried cause ∨
          BlamesFirst job base mode scope lines h words written carried cause) ∧
        e = .atLine carried cause) ∧
    ∀ words written carried cause,
      Blames job base mode scope lines h words written carried cause →
        carried = written ∨
          LineHas lines written (lexemes words ++ [.colon]) ∧ written < carried := by
  refine ⟨fun e => ?_, fun words written carried cause => Blames.line⟩
  rw [text_fails_iff]
  -- An error without a line gets the one that it is given.
  have hline {words : Name} {written carried : Nat} {cause : ScriptError}
      (hblames : Blames job base mode scope lines h words written carried cause ∨
        BlamesFirst job base mode scope lines h words written carried cause) :
      cause.atLineOnce carried = .atLine carried cause :=
    ScriptError.atLineOnce_of_isLineless
      (hblames.elim Blames.isLineless BlamesFirst.isLineless) carried
  constructor
  · intro hstops
    cases hstops with
    | fault hfault => exact .inl ⟨_, _, hfault, rfl⟩
    | act hs hactions hrun =>
      obtain ⟨words, written, hblames⟩ := blames_of_act hs hactions hrun
      exact .inr ⟨words, written, _, _, .inl hblames, hline (.inl hblames)⟩
    | run hs hactions hrun hwalk =>
      obtain ⟨words, written, carried, cause, hblames, he⟩ :=
        blames_of_run hs hactions hrun hwalk
      exact .inr ⟨words, written, carried, cause, hblames, he.trans (hline hblames)⟩
  · rintro (⟨line, fault, hfault, rfl⟩ | ⟨words, written, carried, cause, hblames, rfl⟩)
    · exact .fault hfault
    · rw [← hline hblames]
      rcases hblames with hblames | hblames
      · cases hblames with
        | begun hs hactions haction hrun hstands =>
          obtain ⟨rfl, -⟩ := hs.traced.1.begins hactions haction
          exact .act hs hactions hrun
        | ended hs hactions hblocks hrun hstands =>
          obtain ⟨rfl, -⟩ := hs.traced.1.ends hactions hblocks
          exact .act hs hactions hrun
        | ran hs hactions hrun hfails hculprit hstands =>
          exact stops_of_failsAt hs hactions hrun hfails hculprit
      · obtain ⟨hs, hactions, hrun, hfails, hculprit⟩ := hblames
        exact stops_of_failsAt hs hactions hrun hfails hculprit

/-! ### Two lines that are not right -/

/-- A text ends because words are not known, which a line is named for. -/
def EndsUnknown (lines : List String) (h : House) (line : Nat) (words : Name) : Prop :=
  ∃ known tr h', Walk ⟨0⟩ []
    ⟨[], .call (.session (.start .script ⟨0⟩) (textInputs lines) .script)⟩ h tr
    (.error (.atLine line (.unknownWord words known))) h'

/-- The line that a strand names last, and the words that are not known. -/
def State.unknownAt? : State → Option (Nat × Name)
  | ⟨[], .give (.error (.atLine line (.unknownWord words _)))⟩ => some (line, words)
  | _ => none

theorem endsUnknown_of_advance {line : Nat} (n : Nat)
    (hn : (advance ⟨0⟩ n
      ⟨[], .call (.session (.start .script ⟨0⟩) (textInputs lines) .script)⟩ h).2.1.unknownAt? =
        some (line, words)) : EndsUnknown lines h line words := by
  have hleads := leads_advance ⟨0⟩ n
    ⟨[], .call (.session (.start .script ⟨0⟩) (textInputs lines) .script)⟩ h
  generalize advance ⟨0⟩ n _ h = r at hn hleads
  obtain ⟨tr, t, h'⟩ := r
  dsimp only at hn hleads
  unfold State.unknownAt? at hn
  split at hn
  · next line' words' known =>
    obtain ⟨rfl, rfl⟩ := Prod.mk.inj (Option.some.inj hn)
    exact ⟨known, _, h', hleads.walk (.arrive ..)⟩
  · cases hn

/-- A block below words that are not known. -/
def headerText : List String := ["frob:", "\tx"]

/-- A choice with a condition that is not known. -/
def choiceText : List String := ["block:", "\tif false: block", "\telse if frob: block"]

/-- A house with some modules. -/
def choiceHouse : House :=
  (((Module.builtIn.take 3).forM Act.install).runOn (House.empty .standard ⟨0⟩)).2

/-- The error names the line where the block begins, or that of the `if`, and the words that are not
known are not on that line. -/
theorem unknown_words_elsewhere :
    (EndsUnknown headerText (House.empty .standard ⟨0⟩) 2 [.text "frob"] ∧
      LineHas headerText 1 (lexemes [.text "frob"] ++ [.colon]) ∧
      ∀ ls, LineHas headerText 2 ls → .word (.text "frob") ∉ ls) ∧
    EndsUnknown choiceText choiceHouse 2 [.text "frob"] ∧
      LineHas choiceText 3
        (lexemes [.text "else", .text "if", .text "frob"] ++ .colon :: lexemes [.text "block"]) ∧
      ∀ ls, LineHas choiceText 2 ls → .word (.text "frob") ∉ ls := by
  have hbelow : LineHas headerText 2 (lexemes [.text "x"]) :=
    ⟨1, "\tx", rfl, rfl, by decide +kernel⟩
  have hif : LineHas choiceText 2
      (lexemes [.text "if", .text "false"] ++ .colon :: lexemes [.text "block"]) :=
    ⟨1, "\tif false: block", rfl, rfl, by decide +kernel⟩
  refine ⟨⟨endsUnknown_of_advance 3 (by decide +kernel), ⟨0, "frob:", rfl, rfl, by decide +kernel⟩,
    fun ls hls => ?_⟩, endsUnknown_of_advance 16 (by decide +kernel),
    ⟨2, "\telse if frob: block", rfl, rfl, by decide +kernel⟩, fun ls hls => ?_⟩
  · rw [hls.unique hbelow]
    decide
  · rw [hls.unique hif]
    decide

end Hearth.Strand

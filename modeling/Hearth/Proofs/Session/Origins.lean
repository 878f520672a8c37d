import Hearth.Proofs.Script.Written
import Hearth.Proofs.Session.Phrases
import Hearth.Proofs.Session.Recovery

/-!
# Where the statements of a session come from

All statements that a session holds are written in the text that it reads: the words of each phrase
stand on a line of it, and the phrase has the number of the action that they completed. The blocks
that stand on the line that is read are the innermost ones, and they are over when the line is.

## Main definitions

* `Phrase.StandsIn`, `Statement.StandsIn` : a phrase, and all phrases of a statement, are written in
  a text.
* `Session.Traced` : where the statements of a session come from.

## Main results

* `Session.Traced.given`, `Session.Traced.read`, `Session.Traced.act` : a session stays so.
* `Session.Traced.stands`, `Session.Traced.ends` : where the statement of the next action stands.
-/

namespace Hearth

open Script

/-- The words of a phrase stand on a line of a text, which is the line of the phrase if it cannot
have a block. -/
structure Phrase.StandsOn (lines : List String) (p : Phrase) (written : Nat) : Prop where
  stands : Stands lines p.event.name written p.line
  blockless : p.verb.block = .none → written = p.line

/-- The words of a phrase stand in a text. -/
def Phrase.StandsIn (lines : List String) (p : Phrase) : Prop := ∃ written, p.StandsOn lines written

/-- The words of all phrases of a statement stand in a text. -/
def Statement.StandsIn (lines : List String) (s : Statement) : Prop :=
  ∀ p ∈ s.phrases, p.StandsIn lines

namespace Session

/-- Where the statements of a session come from that reads a text. -/
structure Traced (lines : List String) (s : Session) : Prop where
  reading : Reading lines s.layout.line s.outline.place s.marks
  stands : ∀ b ∈ s.blocks, b.StandsIn lines
  /-- The innermost blocks stand on the line, and the others below theirs. -/
  blocks : ∃ inline below : List Phrase, s.blocks.map Statement.phrase = inline ++ below ∧
    (∀ p ∈ inline, Here lines p.event.name s.layout.line ∧ p.line = s.layout.line) ∧
    (∀ p ∈ below, p.line ≤ s.layout.line ∧
      ∃ written, Above lines p.event.name written p.line) ∧
    Pends lines s.layout.line inline.length s.outline.place.inline s.actions

variable {lines : List String} {s s' : Session} {h h' : House}

/-! ### Statements that are begun and completed -/

/-- A statement that is begun has one phrase, of its words and its line. -/
theorem build_origin {words : Name} {line : Nat} {statement : Statement}
    (hrun : (s.build words line).runOn h = (.ok statement, h')) :
    ∃ p : Phrase, statement.phrases = [p] ∧ p.event.name = words ∧ p.line = line := by
  obtain ⟨house, h₁, -, hrun⟩ := Act.runOn_bind_ok.mp hrun
  dsimp only at hrun
  split at hrun
  · cases hrun
  · next verb hverb =>
    obtain ⟨event, h₂, hevent, hbuild⟩ := Act.runOn_bind_ok.mp hrun
    exact ⟨⟨verb, event, line⟩, Act.build_phrases _ _ _ _ hbuild,
      Act.makeEvent_gives _ _ _ _ _ hevent, rfl⟩

/-- What becomes of a session that completes a statement: the blocks keep their phrases, the phrases
inside them are those that were there and those of the statement, and only that is to be run. -/
structure Completed (s : Session) (statement : Statement) (s' : Session) (r : Option Statement) :
    Prop where
  same : s' = { s with blocks := s'.blocks }
  kept : s'.blocks.map Statement.phrase = s.blocks.map Statement.phrase
  inside : ∀ b ∈ s'.blocks, ∀ p ∈ b.phrases,
    p ∈ statement.phrases ∨ ∃ b' ∈ s.blocks, p ∈ b'.phrases
  handed : ∀ x ∈ r, x = statement

theorem completed_of_complete {statement : Statement} {r : Option Statement}
    (hrun : (s.complete statement).runOn h = (.ok (s', r), h')) :
    s.Completed statement s' r := by
  rw [complete] at hrun
  split at hrun
  · cases hrun
    exact ⟨rfl, rfl, fun b hb p hp => .inr ⟨b, hb, hp⟩, fun x hx => (Option.some.inj hx).symm⟩
  · next parent rest hblocks =>
    -- Whether it is applied or added, the one around it keeps its phrase.
    have hgives {a : Act Statement} (hphrase : a.Gives fun s => s.phrase = parent.phrase)
        (hphrases : a.Gives fun s =>
          ∀ p ∈ s.phrases, p ∈ parent.phrases ∨ p ∈ statement.phrases)
        (hrun : (a >>= fun parent => pure ({ s with blocks := parent :: rest }, none)).runOn h =
          (.ok (s', r), h')) : s.Completed statement s' r := by
      obtain ⟨parent', h₁, hparent, hrun⟩ := Act.runOn_bind_ok.mp hrun
      cases hrun
      refine ⟨rfl, ?_, fun b hb p hp => ?_, fun x hx => by cases hx⟩
      · rw [hblocks, List.map_cons, hphrase _ _ _ hparent, List.map_cons]
      · rw [hblocks]
        rcases List.mem_cons.mp hb with rfl | hb
        · exact (hphrases _ _ _ hparent p hp).symm.imp_right fun hp =>
            ⟨parent, List.mem_cons_self, hp⟩
        · exact .inr ⟨b, List.mem_cons_of_mem _ hb, hp⟩
    split at hrun
    · exact hgives (Act.applyTo_gives _ _) (Act.applyTo_phrases _ _) hrun
    · exact hgives (.ofExcept fun _ => Statement.phrase_add)
        (.ofExcept fun _ h _ => Statement.mem_phrases_add h) hrun

/-- A session counts the lines that it is given. -/
theorem line_of_given {v : Session} {text : String} (hgiven : s.given (.line text) = some v) :
    v.layout.line = s.layout.line + 1 := by
  rw [given] at hgiven
  split at hgiven
  · next layout marks hfeed =>
    obtain rfl := Option.some.inj hgiven
    exact line_of_feed hfeed
  · cases hgiven

namespace Traced

/-- Before the first line nothing is held. -/
theorem start (lines : List String) (mode : Mode) (scope : ScopeId) :
    (start mode scope).Traced lines :=
  ⟨.passed, nofun, [], [], rfl, nofun, nofun, .nil 0⟩

/-- A statement that is written in the text is completed. -/
theorem complete {statement : Statement} {r : Option Statement} (hs : s.Traced lines)
    (hstatement : statement.StandsIn lines)
    (hrun : (s.complete statement).runOn h = (.ok (s', r), h')) :
    s'.Traced lines ∧ ∀ x ∈ r, x.StandsIn lines := by
  have hcompleted := completed_of_complete hrun
  obtain ⟨inline, below, hsplit, hblocks⟩ := hs.blocks
  refine ⟨?_, fun x hx => hcompleted.handed x hx ▸ hstatement⟩
  rw [hcompleted.same]
  refine ⟨hs.reading, fun b hb p hp => ?_, inline, below, hcompleted.kept.trans hsplit, hblocks⟩
  rcases hcompleted.inside b hb p hp with hp | ⟨b', hb', hp⟩
  · exact hstatement p hp
  · exact hs.stands b' hb' p hp

/-- A statement that is begun is written where the words of its action are. -/
theorem begun {words : Name} {line written : Nat} {statement : Statement}
    (hstands : Stands lines words written line)
    (hblockless : statement.verb.block = .none → written = line)
    (hrun : (s.build words line).runOn h = (.ok statement, h')) :
    statement.StandsIn lines ∧ statement.phrase.event.name = words ∧
      statement.phrase.line = line := by
  obtain ⟨p, hphrases, rfl, rfl⟩ := build_origin hrun
  have hphrase : statement.phrase = p :=
    Option.some.inj (statement.head?_phrases.symm.trans (congrArg List.head? hphrases))
  refine ⟨fun q hq => ?_, congrArg (·.event.name) hphrase, congrArg Phrase.line hphrase⟩
  rw [hphrases] at hq
  obtain rfl := List.mem_singleton.mp hq
  rw [Statement.verb, hphrase] at hblockless
  exact ⟨written, hstands, hblockless⟩

/-- A session that takes an action hands out only what is written in the text. -/
theorem act {action : Action} {actions : List Action} {r : Option Statement}
    (hs : s.Traced lines) (hactions : s.actions = action :: actions)
    (hrun : (Session.act { s with actions } action).runOn h = (.ok (s', r), h')) :
    s'.Traced lines ∧ ∀ x ∈ r, x.StandsIn lines := by
  obtain ⟨inline, below, hsplit, hinline, hbelow, hpends⟩ := hs.blocks
  rw [hactions] at hpends
  cases action with
  | simple words line =>
    obtain ⟨rfl, hhere, hrest⟩ := hpends.of_simple
    obtain ⟨statement, h₁, hbuild, hrun⟩ := Act.runOn_bind_ok.mp hrun
    obtain ⟨-, h₂, -, hrun⟩ := Act.runOn_bind_ok.mp hrun
    have hv : Session.Traced lines { s with actions } :=
      ⟨hs.reading, hs.stands, inline, below, hsplit, hinline, hbelow, hrest⟩
    exact hv.complete (begun (.here hhere) (fun _ => rfl) hbuild).1 hrun
  | opened words line =>
    obtain ⟨statement, h₁, hbuild, hrun⟩ := Act.runOn_bind_ok.mp hrun
    split at hrun
    · cases hrun
    · next htakes =>
      obtain ⟨-, h₂, -, hrun⟩ := Act.runOn_bind_ok.mp hrun
      obtain ⟨-, h₃, -, hrun⟩ := Act.runOn_bind_ok.mp hrun
      cases hrun
      refine ⟨?_, nofun⟩
      obtain ⟨rfl, ⟨hhere, hrest⟩ | ⟨written, habove, hnone, hrest⟩⟩ := hpends.of_opened
      · obtain ⟨hstands, hwords, hline⟩ := begun (.here hhere) (fun _ => rfl) hbuild
        refine ⟨hs.reading, List.forall_mem_cons.mpr ⟨hstands, hs.stands⟩,
          statement.phrase :: inline, below, ?_, ?_, hbelow, hrest⟩
        · rw [List.map_cons, hsplit, List.cons_append]
        · exact List.forall_mem_cons.mpr ⟨⟨hwords ▸ hhere, hline⟩, hinline⟩
      · obtain ⟨hstands, hwords, hline⟩ :=
          begun (.above habove) (fun hnone => absurd (beq_iff_eq.mpr hnone) htakes) hbuild
        obtain rfl := List.length_eq_zero_iff.mp hnone
        refine ⟨hs.reading, List.forall_mem_cons.mpr ⟨hstands, hs.stands⟩,
          [], statement.phrase :: below, ?_, nofun, ?_, hrest⟩
        · rw [List.map_cons, hsplit]
          rfl
        · refine List.forall_mem_cons.mpr ⟨⟨hline.le, written, ?_⟩, hbelow⟩
          rw [hwords, hline]
          exact habove
  | closed line =>
    rw [Session.act] at hrun
    split at hrun
    · cases hrun
    · next statement blocks hblocks =>
      obtain ⟨-, h₁, -, hrun⟩ := Act.runOn_bind_ok.mp hrun
      have hstands := hs.stands
      dsimp only at hblocks
      rw [hblocks] at hstands hsplit
      obtain ⟨hstatement, hstands⟩ := List.forall_mem_cons.mp hstands
      have hv : Session.Traced lines { s with blocks, actions } := by
        obtain ⟨rfl, ⟨m, hm, hrest⟩ | ⟨hnone, hrest⟩⟩ := hpends.of_closed
        · obtain ⟨p, inline, rfl⟩ := List.exists_cons_of_length_eq_add_one hm
          obtain ⟨-, hsplit⟩ := List.cons.inj hsplit
          obtain rfl := Nat.succ.inj hm
          exact ⟨hs.reading, hstands, inline, below, hsplit,
            fun p hp => hinline p (List.mem_cons_of_mem _ hp), hbelow, hrest⟩
        · obtain rfl := List.length_eq_zero_iff.mp hnone
          rw [List.nil_append] at hsplit
          subst hsplit
          exact ⟨hs.reading, hstands, [], blocks.map Statement.phrase, rfl, nofun,
            fun p hp => hbelow p (List.mem_cons_of_mem _ hp), hrest⟩
      exact hv.complete hstatement hrun

/-- A session that reads a mark. -/
theorem read {mark : Script.Mark} {marks : List Script.Mark} {outline : Outline}
    {actions : List Action}
    (hs : s.Traced lines) (hactions : s.actions = []) (hmarks : s.marks = mark :: marks)
    (hfeed : s.outline.feed mark = (outline, .ok actions)) :
    Session.Traced lines { s with outline, marks, actions } := by
  obtain ⟨inline, below, hsplit, hinline, hbelow, hpends⟩ := hs.blocks
  have hreading := hs.reading
  rw [hmarks] at hreading
  rw [hactions] at hpends
  obtain ⟨hrest, hpends'⟩ := hreading.feed hfeed
  have hlength : inline.length = s.outline.place.inline := hpends.of_nil
  exact ⟨hrest, hs.stands, inline, below, hsplit, hinline, hbelow, hlength ▸ hpends'⟩

/-- Between two inputs no block stands on the line. -/
theorem rest (hs : s.Traced lines) (hactions : s.actions = []) (hmarks : s.marks = []) :
    Reading lines s.layout.line s.outline.place [] ∧
      ∀ b ∈ s.blocks, b.phrase.line ≤ s.layout.line ∧
        ∃ written, Above lines b.phrase.event.name written b.phrase.line := by
  obtain ⟨inline, below, hsplit, hinline, hbelow, hpends⟩ := hs.blocks
  have hreading := hs.reading
  rw [hmarks] at hreading
  rw [hactions] at hpends
  obtain rfl := List.length_eq_zero_iff.mp (hpends.of_nil.trans hreading.inline_eq_zero)
  refine ⟨hreading, fun b hb => hbelow _ ?_⟩
  rw [← List.nil_append below, ← hsplit]
  exact List.mem_map_of_mem hb

/-- A session that is given the next line of the text, or its end. -/
theorem given {v : Session} {i : Input} (hs : s.Traced lines) (hactions : s.actions = [])
    (hmarks : s.marks = []) (hi : ∀ text, i = .line text → lines[s.layout.line]? = some text)
    (hgiven : s.given i = some v) : v.Traced lines := by
  obtain ⟨hreading, hbelow⟩ := hs.rest hactions hmarks
  have hinline := hreading.inline_eq_zero
  have htraced {layout : Layout} {marks : List Script.Mark} (hline : s.layout.line ≤ layout.line)
      (h : Reading lines layout.line s.outline.place marks) :
      Session.Traced lines { s with layout, marks } := by
    refine ⟨h, hs.stands, [], s.blocks.map Statement.phrase, rfl, nofun, fun p hp => ?_, ?_⟩
    · obtain ⟨b, hb, rfl⟩ := List.mem_map.mp hp
      exact (hbelow b hb).imp_left (·.trans hline)
    · dsimp only
      rw [hactions, hinline]
      exact .nil 0
  cases i with
  | line text =>
    rw [Session.given] at hgiven
    split at hgiven
    · next layout marks hfeed =>
      obtain rfl := Option.some.inj hgiven
      exact htraced (line_of_feed hfeed ▸ Nat.le_succ _)
        (reading_of_feed hreading (hi text rfl) hfeed)
    · cases hgiven
  | finish =>
    obtain rfl := Option.some.inj hgiven
    exact htraced (Nat.le_refl _) (reading_of_close hreading)

/-! ### The statement of the next action -/

/-- The words of a statement that is to be begun stand in the text, and on the line that is read if
it has no block. -/
theorem begins {words : Name} {line : Nat} {action : Action} {actions : List Action}
    (hs : s.Traced lines) (hactions : s.actions = action :: actions)
    (haction : action = .simple words line ∨ action = .opened words line) :
    line = s.layout.line ∧ ∃ written, Stands lines words written line ∧
      (action = .simple words line → written = line) := by
  obtain ⟨inline, below, -, -, -, hpends⟩ := hs.blocks
  rw [hactions] at hpends
  rcases haction with rfl | rfl
  · obtain ⟨rfl, hhere, -⟩ := hpends.of_simple
    exact ⟨rfl, _, .here hhere, fun _ => rfl⟩
  · obtain ⟨rfl, ⟨hhere, -⟩ | ⟨written, habove, -⟩⟩ := hpends.of_opened
    · exact ⟨rfl, _, .here hhere, nofun⟩
    · exact ⟨rfl, written, .above habove, nofun⟩

/-- The statement whose block is to end has its block on the line that is read, or below its own. -/
theorem ends {line : Nat} {actions : List Action} {b : Statement} {blocks : List Statement}
    (hs : s.Traced lines) (hactions : s.actions = .closed line :: actions)
    (hblocks : s.blocks = b :: blocks) :
    line = s.layout.line ∧
      (Here lines b.phrase.event.name line ∧ b.phrase.line = line ∨ b.phrase.line ≤ line ∧
        ∃ written, Above lines b.phrase.event.name written b.phrase.line) := by
  obtain ⟨inline, below, hsplit, hinline, hbelow, hpends⟩ := hs.blocks
  rw [hactions] at hpends
  rw [hblocks, List.map_cons] at hsplit
  obtain ⟨rfl, ⟨m, hm, -⟩ | ⟨hnone, -⟩⟩ := hpends.of_closed
  · obtain ⟨p, inline, rfl⟩ := List.exists_cons_of_length_eq_add_one hm
    obtain ⟨rfl, -⟩ := List.cons.inj hsplit
    exact ⟨rfl, .inl (hinline _ List.mem_cons_self)⟩
  · obtain rfl := List.length_eq_zero_iff.mp hnone
    rw [List.nil_append] at hsplit
    subst hsplit
    exact ⟨rfl, .inr (hbelow _ List.mem_cons_self)⟩

end Traced

end Session

end Hearth

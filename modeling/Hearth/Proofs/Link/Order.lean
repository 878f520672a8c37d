import Hearth.Proofs.Link.Line
import Hearth.Proofs.Link.Turns

/-!
# The order of writing

The messages of a class are written in the order in which they stand in line, and a class has its
turn only while no higher one has messages. A message gets in line behind all others of its class
when it is accepted; those that waited for a reply get in line again before all others when the link
was opened anew.

## Main definitions

* `Loop.InOrder` : of two messages one is written first, if the other one is written at all.
* `Loop.Lined` : a loop and the history of its lines.
* `Station.Orderly` : the order of all that is written.

## Main results

* `Loop.InOrder.turn`, `Loop.Lined.turn` : the turns of a loop.
* `Station.written_in_order` : messages are written in order throughout every run.
-/

namespace Hearth.Link

variable {M : Type}

/-- One class is written before another one. -/
def Traffic.Above (c d : Traffic) : Prop := [c, d].Sublist Traffic.all

instance (c d : Traffic) : Decidable (c.Above d) := inferInstanceAs (Decidable (List.Sublist ..))

theorem Traffic.above_iff {c d : Traffic} : c.Above d ↔
    c = .control ∧ d ≠ .control ∨ c = .urgent ∧ (d = .standard ∨ d = .background) ∨
      c = .standard ∧ d = .background := by
  cases c <;> cases d <;> decide

/-- A message was accepted before another one was. -/
def AcceptedBefore (x y : Numbered M) (past : List (Output (Numbered M))) : Prop :=
  ∃ earlier, .asked y .traffic :: earlier <:+ past ∧ ¬ Accepted earlier y.number ∧
    .asked x .traffic ∈ earlier

namespace Buckets

variable {b b' : Buckets M} {c : Traffic} {m : M}

/-- The message that is taken is the first one of its class, and there is none of a higher class. -/
theorem of_pop (h : b.pop = some (c, m, b')) :
    b.get c = m :: b'.get c ∧ (∀ d, d ≠ c → b'.get d = b.get d) ∧
      ∀ d, d.Above c → b.get d = [] := by
  obtain ⟨control, urgent, standard, background⟩ := b
  unfold pop at h
  split at h
  all_goals simp only [Option.some.injEq, Prod.mk.injEq, reduceCtorEq] at h
  all_goals
    obtain ⟨rfl, rfl, rfl⟩ := h
    refine ⟨by simp_all [get], fun d hd => ?_, fun d hd => ?_⟩
    · cases d <;> simp_all [get]
    · have hd := Traffic.above_iff.mp hd
      cases d <;> simp_all [get]

/-- What is left of a line is part of it. -/
theorem sublist_of_pop (h : b.pop = some (c, m, b')) (d : Traffic) :
    (b'.get d).Sublist (b.get d) := by
  obtain ⟨hget, hothers, -⟩ := of_pop h
  by_cases hd : d = c
  · rw [hd, hget]
    exact List.sublist_cons_self ..
  · rw [hothers d hd]

theorem get_sublist (b : Buckets M) (c : Traffic) : (b.get c).Sublist b.all := by
  have hurgent := List.sublist_append_left (b.control ++ b.urgent) b.standard
  have hstandard := List.sublist_append_left (b.control ++ b.urgent ++ b.standard) b.background
  cases c with
  | control => exact ((List.sublist_append_left ..).trans hurgent).trans hstandard
  | urgent => exact ((List.sublist_append_right ..).trans hurgent).trans hstandard
  | standard => exact (List.sublist_append_right ..).trans hstandard
  | background => exact List.sublist_append_right ..

/-- What tells messages apart tells them apart in all lines. -/
theorem nodup_get {f : M → Nat} (h : (b.all.map f).Nodup) {d : Traffic} {m' : M}
    (hm : m ∈ b.get c) (hm' : m' ∈ b.get d) (hf : f m = f m') : c = d := by
  simp only [all, List.map_append, List.nodup_append, List.mem_append, List.mem_map] at h
  cases c <;> cases d <;> first | rfl | grind [get]

end Buckets

namespace Loop

variable [Message M]

/-! ### Two messages -/

/-- Before a message is written something has to happen, and as long as it has not, the message
stands behind another one, or was finished. -/
structure InOrder (p : Output (Numbered M) → Prop) (a b : Nat) (past : List (Output (Numbered M)))
    (l : Loop (Numbered M)) : Prop where
  precedes : Precedes p b (l.log ++ past)
  waits : (∃ o ∈ l.log ++ past, p o) ∨
    (∃ c, [a, b].Sublist ((l.buckets.get c).map (·.number))) ∨
      ∃ o ∈ l.log ++ past, o.finished? = some b

namespace InOrder

variable {p : Output (Numbered M) → Prop} {a b : Nat} {past : List (Output (Numbered M))}
  {l l' : Loop (Numbered M)} {hand : List Nat}

omit [Message M] in
/-- The log of a loop becomes part of its history. -/
theorem drain (h : l.InOrder p a b past) : InOrder p a b (l.log ++ past) { l with log := [] } :=
  ⟨h.precedes, h.waits⟩

/-- What writes nothing keeps two messages in order. -/
theorem queues (h : l.InOrder p a b past) (hq : l.Queues hand l') : l'.InOrder p a b past := by
  obtain ⟨es, hq⟩ := hq
  have hs : l.log ++ past ⊆ es ++ (l.log ++ past) := List.subset_append_right ..
  refine ⟨?_, ?_⟩
  · rw [hq.log, List.append_assoc]
    exact h.precedes.append hq.unsent
  · rw [hq.log, List.append_assoc]
    rcases h.waits with hp | ⟨c, hc⟩ | hf
    · exact .inl (happened_mono hs hp)
    · rcases hq.order with ho | hf
      · exact .inr (.inl ⟨c, hc.trans ((ho c).map _)⟩)
      · obtain ⟨m, hm, rfl⟩ := List.mem_map.mp (hc.subset (a := b) (by simp))
        obtain ⟨o, ho, hn⟩ := hf c m hm
        exact .inr (.inr ⟨o, List.mem_append_left _ ho, hn⟩)
    · exact .inr (.inr (happened_mono hs hf))

omit [Message M] in
/-- The first message of the highest class is written. -/
theorem pop {c : Traffic} {m : Numbered M} {rest : Buckets (Numbered M)}
    (h : l.InOrder p a b past) (hp : ∀ o, o.Sends a → p o)
    (hpop : l.buckets.pop = some (c, m, rest)) (hd : (l.buckets.all.map (·.number)).Nodup)
    (hf : ∀ o ∈ l.log ++ past, o.finished? ≠ some m.number) :
    InOrder p a b past ({ l with buckets := rest }.ask m .send) := by
  obtain ⟨hget, hothers, -⟩ := Buckets.of_pop hpop
  have hm : m ∈ l.buckets.get c := by simp [hget]
  have hnot : m.number ∉ (rest.get c).map (·.number) := by
    have hc : ((l.buckets.get c).map (·.number)).Nodup :=
      hd.sublist ((l.buckets.get_sublist c).map _)
    rw [hget, List.map_cons, List.nodup_cons] at hc
    exact hc.1
  refine ⟨h.precedes.cons fun ⟨m', he, hb⟩ => ?_, ?_⟩
  · obtain rfl : m = m' := by simpa using he
    rcases h.waits with hp | ⟨c', hc'⟩ | ⟨o, ho, hfin⟩
    · exact hp
    · -- the message that is written would be the first one, and stand behind another one
      obtain ⟨m', hm', hn⟩ := List.mem_map.mp (hc'.subset (a := b) (by simp))
      obtain rfl : c = c' := Buckets.nodup_get hd hm hm' (hb.trans hn.symm)
      rw [hget, List.map_cons, List.cons_sublist_cons'] at hc'
      have hmem : b ∈ (rest.get c).map (·.number) := by
        rcases hc' with hc' | ⟨-, hc'⟩
        · exact hc'.subset (by simp)
        · exact hc'.subset (by simp)
      exact absurd (hb ▸ hmem) hnot
    · exact absurd (hb ▸ hfin) (hf o ho)
  · have hs : l.log ++ past ⊆ .asked m .send :: (l.log ++ past) := List.subset_cons_self ..
    by_cases ha : m.number = a
    · exact .inl ⟨.asked m .send, List.mem_cons_self, hp _ ⟨m, rfl, ha⟩⟩
    · rcases h.waits with hp | ⟨c', hc'⟩ | hfin
      · exact .inl (happened_mono hs hp)
      · refine .inr (.inl ⟨c', ?_⟩)
        change [a, b].Sublist ((rest.get c').map (·.number))
        by_cases hcc : c' = c
        · subst hcc
          rw [hget, List.map_cons, List.cons_sublist_cons'] at hc'
          exact hc'.resolve_right fun h => ha h.1.symm
        · rwa [hothers c' hcc]
      · exact .inr (.inr (happened_mono hs hfin))

end InOrder

/-! ### Rounds -/

/-- What a round of writing does: it writes nothing, or the first message of the highest class. -/
inductive Rounds (l l' : Loop (Numbered M)) : Prop
  | rests (queues : l.Queues [] l')
  | writes {ms : List (Numbered M)} {l₁ : Loop (Numbered M)} {c : Traffic} {m : Numbered M}
      {rest : Buckets (Numbered M)} (looked : l.Queues [] l₁) (asked : l.Asks ms l₁)
      (popped : l.buckets.pop = some (c, m, rest))
      (sent : ({ l₁ with buckets := rest }.ask m .send).Queues [m.number] l')

theorem Rounds.trans {l₁ l₂ l₃ : Loop (Numbered M)} (h₁ : l₁.Rounds l₂)
    (h₂ : ∀ hand, l₂.Queues hand l₃) : l₁.Rounds l₃ := by
  cases h₁ with
  | rests queues => exact .rests (queues.trans (h₂ _))
  | writes looked asked popped sent => exact .writes looked asked popped (sent.trans (h₂ _))

theorem round_rounds (hsteady : Steady (Message.traffic (M := Numbered M)))
    {l : Loop (Numbered M)} (hc : ∀ c, ∀ m ∈ l.buckets.get c, Message.traffic m = c) (now : Nat) :
    l.Rounds (l.round now).2 := by
  have hq : l.Queues [] (anyBlocking l.receivers l).2 := anyBlocking_queues ..
  have ha := anyBlocking_asks l.receivers l
  unfold round
  split
  · exact .rests (.refl l)
  · split
    · next l₁ heq =>
      rw [heq] at hq
      exact .rests hq
    · next l₁ heq =>
      rw [heq] at hq ha
      split
      · exact .rests hq
      · split
        · exact .rests hq
        · next c m rest hpop =>
          rw [show _ = l.buckets from ha.buckets] at hpop
          refine .writes hq ha hpop (sendOne_queues hsteady now _ (hc c m ?_))
          rw [(Buckets.of_pop hpop).1]
          exact List.mem_cons_self

/-! ### A loop and the history of its lines -/

/-- Every message stands in the line of its class. What a loop has or was asked to write was
accepted before; and what was accepted was served since then, or still stands in its line. Of two
messages of a class the one that was accepted first comes first. -/
structure Lined (past : List (Output (Numbered M))) (l : Loop (Numbered M)) : Prop where
  classed : ∀ c, ∀ m ∈ l.buckets.get c, Message.traffic m = c
  known : ∀ n ∈ l.held, Accepted (l.log ++ past) n
  sent : ∀ m, .asked m .send ∈ l.log ++ past → Accepted (l.log ++ past) m.number
  unsent : ∀ m, .asked m .traffic ∈ l.log ++ past →
    (∃ o ∈ l.log ++ past, o.Serves m.number) ∨ m ∈ l.buckets.get (Message.traffic m)
  pairs : ∀ x y, AcceptedBefore x y (l.log ++ past) → Message.traffic x = Message.traffic y →
    l.InOrder (·.Serves x.number) x.number y.number past

namespace Lined

variable {past : List (Output (Numbered M))} {l l' : Loop (Numbered M)} {hand : List Nat}

/-- The log of a loop becomes part of its history. -/
theorem drain (h : l.Lined past) : Lined (l.log ++ past) { l with log := [] } :=
  ⟨h.classed, h.known, h.sent, h.unsent, fun x y hxy hc => (h.pairs x y hxy hc).drain⟩

/-- Nothing is written, and what is new of the messages that were accepted is in order. -/
theorem passes {es : List (Output (Numbered M))} (h : l.Lined past) (hp : l.Passes es hand l')
    (hhand : ∀ n ∈ hand, Accepted (es ++ (l.log ++ past)) n)
    (hpairs : ∀ x y, AcceptedBefore x y (es ++ (l.log ++ past)) →
      AcceptedBefore x y (l.log ++ past) ∨ (Message.traffic x = Message.traffic y →
        l'.InOrder (·.Serves x.number) x.number y.number past)) : l'.Lined past := by
  have hlog : l'.log ++ past = es ++ (l.log ++ past) := by rw [hp.log, List.append_assoc]
  have hs : l.log ++ past ⊆ es ++ (l.log ++ past) := List.subset_append_right ..
  constructor
  case classed =>
    intro c m hm
    rcases hp.classed c m hm with hm | hc
    · exact h.classed c m hm
    · exact hc
  case known =>
    intro n hn
    rw [hlog]
    rcases List.mem_append.mp (hp.held n hn) with hn | hn
    · exact hhand n hn
    · exact (h.known n hn).mono hs
  case sent =>
    intro m hm
    rw [hlog] at hm ⊢
    exact (h.sent m ((List.mem_append.mp hm).resolve_left (hp.unsent m))).mono hs
  case unsent =>
    intro m hm
    have hfin (hf : ∃ o ∈ es, o.finished? = some m.number) :
        ∃ o ∈ es ++ (l.log ++ past), o.Serves m.number :=
      let ⟨o, ho, hn⟩ := hf
      ⟨o, List.mem_append_left _ ho, .inr hn⟩
    rw [hlog] at hm ⊢
    rcases List.mem_append.mp hm with hm | hm
    · exact (hp.placed m hm).2.symm.imp_left hfin
    · rcases h.unsent m hm with hserved | hin
      · exact .inl (happened_mono hs hserved)
      · rcases hp.order with ho | hf
        · exact .inr ((ho _).subset hin)
        · exact .inl (hfin (hf _ m hin))
  case pairs =>
    intro x y hxy hc
    rw [hlog] at hxy
    rcases hpairs x y hxy with hold | hnew
    · exact (h.pairs x y hold hc).queues ⟨es, hp⟩
    · exact hnew hc

/-- Nothing is written, and no message is accepted. -/
theorem queues (h : l.Lined past) (hhand : ∀ n ∈ hand, Accepted (l.log ++ past) n)
    (hq : l.Queues hand l') : l'.Lined past := by
  obtain ⟨es, hp⟩ := hq
  have hknown {n : Nat} (hn : n ∈ hand ++ l.held) : Accepted (l.log ++ past) n := by
    rcases List.mem_append.mp hn with hn | hn
    · exact hhand n hn
    · exact h.known n hn
  refine h.passes hp (fun n hn => (hhand n hn).mono (List.subset_append_right ..))
    fun x y ⟨earlier, hs, hnew, hx⟩ => .inl ?_
  · -- a message that is asked for its class now was accepted before
    refine ⟨earlier, ?_, hnew, hx⟩
    obtain ⟨later, hlater⟩ := hs
    rcases List.append_eq_append_iff.mp hlater with ⟨es', he, hsplit⟩ | ⟨es', he, hsplit⟩
    · cases es' with
      | nil => exact ⟨[], hsplit⟩
      | cons o es' =>
        obtain ⟨rfl, rfl⟩ := List.cons.inj hsplit
        have hy : .asked y .traffic ∈ es := by simp [he]
        obtain ⟨m, hm, hn⟩ := hknown (hp.placed y hy).1
        exact absurd ⟨m, List.mem_append_right _ hm, hn⟩ hnew
    · exact ⟨es', hsplit.symm⟩

/-- Nothing is written, and nobody has a message in the hand. -/
theorem quiet (h : l.Lined past) (hq : l.Queues [] l') : l'.Lined past :=
  h.queues (fun _ hn => absurd hn List.not_mem_nil) hq

/-- A message that is accepted comes behind all others of its class. -/
theorem accept (h : l.Lined past) (m : Numbered M) : (l.accept m).Lined past := by
  obtain ⟨es, hp⟩ := accept_queues l (List.mem_singleton_self m.number)
  have hes : es = [.asked m .traffic, .asked m .describe] := by
    have hlog : (l.accept m).log = [.asked m .traffic, .asked m .describe] ++ l.log := rfl
    exact (List.append_cancel_right (hlog.symm.trans hp.log)).symm
  subst hes
  refine h.passes hp (fun n hn => ?_) fun x y ⟨earlier, hs, hnew, hx⟩ => ?_
  · exact ⟨m, List.mem_cons_self, (List.mem_singleton.mp hn).symm⟩
  · rcases List.suffix_cons_iff.mp hs with he | hs
    · -- the message that was accepted later is the one that is accepted now
      obtain ⟨hy, rfl⟩ := List.cons.inj he
      obtain rfl : y = m := by simpa using hy
      refine .inr fun hc => ?_
      have hx : .asked x .traffic ∈ l.log ++ past := by simpa using hx
      have hnew : ¬ Accepted (l.log ++ past) y.number := fun h =>
        hnew (h.mono (List.subset_append_right [_] _))
      refine ⟨?_, ?_⟩
      · have hprec : Precedes (·.Serves x.number) y.number (l.log ++ past) := by
          rintro o earlier ⟨later, hl⟩ ⟨m, rfl, hn⟩
          have hm : .asked m .send ∈ l.log ++ past := by simp [← hl]
          exact absurd (hn ▸ h.sent m hm) hnew
        have hasked : ∀ m, .asked m .send ∉ [Output.asked y .traffic, .asked y .describe] := by simp
        exact hprec.append hasked
      · rcases h.unsent x hx with hserved | hin
        · exact .inl (happened_mono (List.subset_append_right [_, _] _) hserved)
        · refine .inr (.inl ⟨Message.traffic y, ?_⟩)
          have hget : (l.accept y).buckets.get (Message.traffic y) =
              l.buckets.get (Message.traffic y) ++ [y] := by
            change (l.buckets.pushBack _ y).get _ = _
            rw [Buckets.get_pushBack, if_pos rfl]
          rw [hget, List.map_append]
          have hx : [x.number].Sublist ((l.buckets.get (Message.traffic y)).map (·.number)) :=
            List.singleton_sublist.mpr (List.mem_map_of_mem (hc ▸ hin))
          exact hx.append (.refl [y.number])
    · refine .inl ⟨earlier, ?_, hnew, hx⟩
      exact (List.suffix_cons_iff.mp hs).resolve_left (by simp)

theorem acceptMany (h : l.Lined past) (ms : List (Numbered M)) :
    (ms.foldl Loop.accept l).Lined past := by
  induction ms generalizing l with
  | nil => exact h
  | cons m ms ih => exact ih (h.accept m)

/-- The first message of the highest class is written. -/
theorem pop {c : Traffic} {m : Numbered M} {rest : Buckets (Numbered M)} (h : l.Lined past)
    (hpop : l.buckets.pop = some (c, m, rest)) (hd : (l.buckets.all.map (·.number)).Nodup)
    (hf : ∀ o ∈ l.log ++ past, o.finished? ≠ some m.number) :
    Lined past ({ l with buckets := rest }.ask m .send) := by
  obtain ⟨hget, hothers, -⟩ := Buckets.of_pop hpop
  have hsub (d : Traffic) {m : Numbered M} (hm : m ∈ rest.get d) : m ∈ l.buckets.get d :=
    (Buckets.sublist_of_pop hpop d).subset hm
  have hm : m ∈ l.buckets.get c := by simp [hget]
  have hs : l.log ++ past ⊆ .asked m .send :: (l.log ++ past) := List.subset_cons_self ..
  have hhas {d : Traffic} {m : Numbered M} (hm : m ∈ l.buckets.get d) : m.number ∈ l.held :=
    List.mem_append_right _ (List.mem_map_of_mem (Buckets.mem_all.mpr ⟨d, hm⟩))
  constructor
  case classed => exact fun d m hm => h.classed d m (hsub d hm)
  case known =>
    intro n hn
    rcases List.mem_append.mp hn with hn | hn
    · exact (h.known n (List.mem_append_left _ hn)).mono hs
    · obtain ⟨m', hm', rfl⟩ := List.mem_map.mp hn
      obtain ⟨d, hm'⟩ := Buckets.mem_all.mp hm'
      exact (h.known _ (hhas (hsub d hm'))).mono hs
  case sent =>
    intro m' hm'
    rcases List.mem_cons.mp hm' with he | hm'
    · obtain rfl : m' = m := by simpa using he
      exact (h.known _ (hhas hm)).mono hs
    · exact (h.sent m' hm').mono hs
  case unsent =>
    intro x hx
    have hx : .asked x .traffic ∈ l.log ++ past := (List.mem_cons.mp hx).resolve_left (by simp)
    rcases h.unsent x hx with hserved | hin
    · exact .inl (happened_mono hs hserved)
    · by_cases hxm : x = m
      · exact .inl ⟨_, List.mem_cons_self, .inl ⟨m, rfl, by rw [hxm]⟩⟩
      · refine .inr ?_
        change x ∈ rest.get _
        by_cases hdc : Message.traffic x = c
        · rw [hdc, hget] at hin
          exact hdc ▸ (List.mem_cons.mp hin).resolve_left hxm
        · rwa [hothers _ hdc]
  case pairs =>
    rintro x y ⟨earlier, hs, hnew, hx⟩ hc
    have hold : AcceptedBefore x y (l.log ++ past) :=
      ⟨earlier, (List.suffix_cons_iff.mp hs).resolve_left (by simp), hnew, hx⟩
    exact (h.pairs x y hold hc).pop (fun o ho => .inl ho) hpop hd hf

end Lined

/-! ### Turns -/

section Turns

variable {past : List (Output (Numbered M))} {l l' : Loop (Numbered M)} {now : Nat}
  {stage stage' : Stage} {taken : List (Numbered M)}

/-- A turn writes nothing, or is a round of writing. -/
theorem Turn.rounds (hsteady : Steady (Message.traffic (M := Numbered M)))
    (hc : ∀ c, ∀ m ∈ l.buckets.get c, Message.traffic m = c)
    (ht : Turn now stage l taken stage' l') : l.Queues (taken.map (·.number)) l' ∨ l.Rounds l' := by
  have hmany (l : Loop (Numbered M)) :
      l.Queues (taken.map (·.number)) (taken.foldl accept l) :=
    acceptMany_queues taken l fun m hm => List.mem_map_of_mem hm
  cases ht with
  | begin => exact .inl (.spares (l.maybeConnect_spares.trans (publish_spares _)))
  | handle input => exact .inl (handle_queues now l input)
  | stop =>
    have hfail := ((Queues.spares l.abort_spares).trans (hmany _)).trans (failAll_queues _ .closed)
    exact .inl (hfail.trans (.spares ((hangUp_spares _).trans (publish_spares _))))
  | gather => exact .inl ((hmany l).trans (.spares (maybeConnect_spares _)))
  | write written => exact .inr (by simpa only [written] using round_rounds hsteady hc now)
  | @rest _ l' done =>
    have hr : l.Rounds l' := by simpa only [done] using round_rounds hsteady hc now
    exact .inr (hr.trans fun hand => .spares (publish_spares l'))

omit [Message M] in
/-- What a loop asks changes nothing about the messages that were finished. -/
theorem Asks.unfinished {ms : List (Numbered M)} {l l' : Loop (Numbered M)} (h : l.Asks ms l')
    {n : Nat} (hf : ∀ o ∈ l.log ++ past, o.finished? ≠ some n) :
    ∀ o ∈ l'.log ++ past, o.finished? ≠ some n := by
  obtain ⟨es, rfl, hes⟩ := h
  intro o ho
  rw [List.append_assoc, List.mem_append] at ho
  rcases ho with ho | ho
  · obtain ⟨m, -, q, rfl⟩ := hes o ho
    exact nofun
  · exact hf o ho

/-- The messages in the lines of a loop are different, and not finished. -/
structure Fresh (past : List (Output (Numbered M))) (l : Loop (Numbered M)) : Prop where
  distinct : (l.buckets.all.map (·.number)).Nodup
  unfinished : ∀ c, ∀ m ∈ l.buckets.get c, ∀ o ∈ l.log ++ past, o.finished? ≠ some m.number

omit [Message M] in
theorem Keeps.fresh {given hand : List Nat} (h : l.Keeps past given hand) : l.Fresh past where
  distinct := by
    have hd := (h.perm.nodup_iff.mpr h.distinct).sublist (List.sublist_append_left ..)
    exact (hd.sublist (List.sublist_append_right ..)).sublist (List.sublist_append_right ..)
  unfinished := by
    intro c m hm o ho hn
    have hall : m ∈ l.buckets.all := Buckets.mem_all.mpr ⟨c, hm⟩
    have hheld : m.number ∈ hand ++ l.held :=
      List.mem_append_right _ (List.mem_append_right _ (List.mem_map_of_mem hall))
    exact h.not_finished hheld (List.mem_filterMap.mpr ⟨o, ho, hn⟩)

theorem InOrder.rounds {p : Output (Numbered M) → Prop} {a b : Nat} (h : l.InOrder p a b past)
    (hp : ∀ o, o.Sends a → p o) (hf : l.Fresh past) (hr : l.Rounds l') :
    l'.InOrder p a b past := by
  cases hr with
  | rests queues => exact h.queues queues
  | @writes ms l₁ c m rest looked asked popped sent =>
    have hm : m ∈ l.buckets.get c := by simp [(Buckets.of_pop popped).1]
    have hpop : l₁.buckets.pop = some (c, m, rest) := by rw [asked.buckets, popped]
    have hd : (l₁.buckets.all.map (·.number)).Nodup := asked.buckets ▸ hf.distinct
    exact ((h.queues looked).pop hp hpop hd (asked.unfinished (hf.unfinished c m hm))).queues sent

theorem Lined.rounds (h : l.Lined past) (hf : l.Fresh past) (hr : l.Rounds l') :
    l'.Lined past := by
  cases hr with
  | rests queues => exact h.quiet queues
  | @writes ms l₁ c m rest looked asked popped sent =>
    have hm : m ∈ l.buckets.get c := by simp [(Buckets.of_pop popped).1]
    have hpop : l₁.buckets.pop = some (c, m, rest) := by rw [asked.buckets, popped]
    have hd : (l₁.buckets.all.map (·.number)).Nodup := asked.buckets ▸ hf.distinct
    have h₂ := (h.quiet looked).pop hpop hd (asked.unfinished (hf.unfinished c m hm))
    refine h₂.queues (fun n hn => ?_) sent
    rw [List.mem_singleton.mp hn]
    exact h₂.sent m List.mem_cons_self

theorem Lined.start (config : Config) : Lined (M := M) [] (.start config) := by
  refine ⟨fun c m hm => ?_, fun n hn => absurd hn List.not_mem_nil,
    fun m hm => absurd hm List.not_mem_nil, fun m hm => absurd hm List.not_mem_nil, ?_⟩
  · cases c <;> exact absurd hm List.not_mem_nil
  · rintro x y ⟨earlier, hs, -⟩
    exact absurd (List.suffix_nil.mp hs) nofun

/-- A turn keeps the history of the lines in order. -/
theorem Lined.turn (hsteady : Steady (Message.traffic (M := Numbered M))) (h : l.Lined past)
    (hf : l.Fresh past) (ht : Turn now stage l taken stage' l') : l'.Lined past := by
  have hspares {l l' : Loop (Numbered M)} (h : l.Lined past) (hs : l.Spares l') : l'.Lined past :=
    h.quiet (.spares hs)
  cases ht with
  | begin => exact hspares h (l.maybeConnect_spares.trans (publish_spares _))
  | handle input goesOn =>
    cases input with
    | traffic m => exact h.accept m
    | control item => exact h.quiet (onControl_queues now l item)
    | timer => exact h.quiet (onTimer_queues now l)
    | abandoned => exact absurd goesOn nofun
  | stop =>
    have hall := (hspares h l.abort_spares).acceptMany taken
    exact hspares (hall.quiet (failAll_queues _ .closed))
      ((hangUp_spares _).trans (publish_spares _))
  | gather => exact hspares (h.acceptMany taken) (maybeConnect_spares _)
  | write written =>
    exact h.rounds hf (by simpa only [written] using round_rounds hsteady h.classed now)
  | @rest _ l' done =>
    have hrounds := h.rounds hf (round_rounds hsteady h.classed now)
    rw [done] at hrounds
    exact hspares hrounds (publish_spares l')

theorem InOrder.turn (hsteady : Steady (Message.traffic (M := Numbered M)))
    {p : Output (Numbered M) → Prop} {a b : Nat} (h : l.InOrder p a b past)
    (hp : ∀ o, o.Sends a → p o) (hc : ∀ c, ∀ m ∈ l.buckets.get c, Message.traffic m = c)
    (hf : l.Fresh past) (ht : Turn now stage l taken stage' l') : l'.InOrder p a b past := by
  rcases ht.rounds hsteady hc with hq | hr
  · exact h.queues hq
  · exact h.rounds hp hf hr

/-- At most one message is asked what to write, the first one of the highest class. -/
theorem Rounds.first (h : l.Rounds l') : ∃ es, l'.log = es ++ l.log ∧
    ∀ m, .asked m .send ∈ es → ∃ c rest, l.buckets.get c = m :: rest ∧
      ∀ d, d.Above c → l.buckets.get d = [] := by
  cases h with
  | rests queues =>
    obtain ⟨es, hq⟩ := queues
    exact ⟨es, hq.log, fun m hm => absurd hm (hq.unsent m)⟩
  | @writes ms l₁ c m rest looked asked popped sent =>
    obtain ⟨es₁, h₁⟩ := looked
    obtain ⟨es₂, h₂⟩ := sent
    have hlog₂ : l'.log = es₂ ++ (.asked m .send :: l₁.log) := h₂.log
    refine ⟨es₂ ++ .asked m .send :: es₁, by rw [hlog₂, h₁.log]; simp, fun m' hm' => ?_⟩
    obtain ⟨hget, -, hnone⟩ := Buckets.of_pop popped
    have hone : m' = m := by
      rcases List.mem_append.mp hm' with hm' | hm'
      · exact absurd hm' (h₂.unsent m')
      · rcases List.mem_cons.mp hm' with he | hm'
        · simpa using he
        · exact absurd hm' (h₁.unsent m')
    exact ⟨c, rest.get c, hone ▸ hget, hnone⟩

/-- While the loop has not its turn messages can be refused. -/
theorem refused_queues (hlog : l.log = []) {es : List (Output (Numbered M))}
    (hes : ∀ o ∈ es, ∃ m e, o = .failed m e) (wire : List (Option QueueError)) :
    l.Queues [] { l with wire, log := es } := by
  have hno (m : Numbered M) (q : Question) : .asked m q ∉ es := fun hm => by
    obtain ⟨m', e, he⟩ := hes _ hm
    exact absurd he nofun
  refine ⟨es, by rw [hlog, List.append_nil], fun m => hno m .send, .inl fun c => .refl _,
    fun c m hm => .inl hm, fun m hm => absurd hm (hno m .traffic),
    fun n hn => List.mem_append_right _ hn⟩

end Turns

end Loop

namespace Station

variable [Message M]

/-- Whatever is done from here on, the messages in line are written in the order in which they
stand there. -/
def InLine (s : Station M) : Prop :=
  ∀ c x y, [x, y].Sublist (s.queue.loop.buckets.get c) → ∀ as, ∃ es,
    (s.run as).past = es ++ s.past ∧ Precedes (·.Sends x.number) y.number es

/-- Messages are written in order. -/
structure Orderly (s : Station M) : Prop where
  /-- A message that is written next is the first one of its class, and there is none of a higher
  class. -/
  highest : ∀ a, ∃ es, (s.act a).past = es ++ s.past ∧ ∀ m, .asked m .send ∈ es →
    (∃ rest, s.queue.loop.buckets.get (Message.traffic m) = m :: rest) ∧
      ∀ c, c.Above (Message.traffic m) → s.queue.loop.buckets.get c = []
  /-- Of two messages of a class the one that was accepted first was written first, if it was not
  finished before. -/
  accepted : ∀ x y, AcceptedBefore x y s.past → Message.traffic x = Message.traffic y →
    Precedes (·.Serves x.number) y.number s.past
  inLine : s.InLine
  /-- After a reconnect the messages that waited and are to be written again stand in line before
  all others of their class, in their order, and are written in that order. -/
  resent : s.stage = .waiting → ∀ g woken queue,
    s.queue.nextInput s.now = some (.control (.connected g), woken, queue) →
    (∀ c, s.turn.queue.loop.buckets.get c =
      (Loop.resent s.queue.loop.receivers).filter (Message.traffic · = c) ++
        s.queue.loop.buckets.get c) ∧ s.turn.InLine

section Runs

variable {s : Station M} (hsteady : Steady (Message.traffic (M := Numbered M)))

include hsteady

/-- The history of the lines stays in order throughout a run. -/
theorem run_lined (hs : s.Sound) (ht : s.stage = .stopped ∨ s.Tended)
    (hl : s.queue.loop.Lined s.past) (as : List (Action M)) :
    (s.run as).queue.loop.Lined (s.run as).past := by
  refine run_induction (I := fun _ past l => l.Lined past) ?_ ?_ hs ht hl as
  · intro _ past l es wire h hlog hes
    have hd := (h.quiet (Loop.refused_queues hlog hes wire)).drain
    rwa [← hlog] at hd
  · intro _ _ _ _ _ _ _ h hk ht
    obtain ⟨_, _, hk⟩ := hk.keeps
    exact (h.turn hsteady hk.fresh ht).drain

/-- Two messages that are in order stay so. -/
theorem run_inOrder (hs : s.Sound) (ht : s.stage = .stopped ∨ s.Tended)
    (hl : s.queue.loop.Lined s.past) {p : Output (Numbered M) → Prop} {a b : Nat}
    (hp : ∀ o, o.Sends a → p o) (h : s.queue.loop.InOrder p a b []) (as : List (Action M)) :
    ∃ es, (s.run as).past = es ++ s.past ∧ (s.run as).queue.loop.InOrder p a b es := by
  refine (run_induction (I := fun _ past l => l.Lined past ∧ ∃ es, past = es ++ s.past ∧
    l.InOrder p a b es) ?_ ?_ hs ht ⟨hl, [], rfl, h⟩ as).2
  · rintro _ past l es wire ⟨hl, es', rfl, h⟩ hlog hes
    have hq := Loop.refused_queues hlog hes wire
    have hd := (hl.quiet hq).drain
    have ho := (h.queues hq).drain
    rw [← hlog] at hd ho
    exact ⟨hd, es ++ es', by simp, ho⟩
  · rintro _ _ past l _ _ l' ⟨hl, es', rfl, h⟩ hk ht
    obtain ⟨_, _, hk⟩ := hk.keeps
    have hf : l.Fresh es' := ⟨hk.fresh.distinct, fun c m hm o ho =>
      hk.fresh.unfinished c m hm o (by rw [← List.append_assoc]; exact List.mem_append_left _ ho)⟩
    exact ⟨(hl.turn hsteady hk.fresh ht).drain, l'.log ++ es', by simp,
      (h.turn hsteady hp hl.classed hf ht).drain⟩

/-- The messages in line are written in their order. -/
theorem inLine (hs : s.Sound) (ht : s.stage = .stopped ∨ s.Tended)
    (hl : s.queue.loop.Lined s.past) : s.InLine := by
  intro c x y hxy as
  have h : s.queue.loop.InOrder (·.Sends x.number) x.number y.number [] := by
    refine ⟨?_, .inr (.inl ⟨c, hxy.map _⟩)⟩
    rw [hs.keeps.log]
    exact .nil
  obtain ⟨es, hp, ho⟩ := run_inOrder hsteady hs ht hl (fun _ ho => ho) h as
  have hprec := ho.precedes
  rw [(hs.run as).keeps.log, List.nil_append] at hprec
  exact ⟨es, hp, hprec⟩

end Runs

/-- Whatever is done around a queue whose messages stay in their class, in any order: a message is
written when it is the first of its class and no higher class has any; two messages of a class are
written in the order in which they were accepted, and those in line in the order of the line; and
after a reconnect the messages that are written again come first, in the order in which they
waited. -/
theorem written_in_order (hsteady : Steady (Message.traffic (M := M))) (name : Name)
    (config : Config) (hook : Hook) (as : List (Action M)) :
    ((start name config hook).run as).Orderly := by
  have hs₀ := Sound.start (M := M) name config hook
  have ht₀ := Tended.start (M := M) name config hook
  have hl := run_lined hsteady.numbered hs₀ (.inr ht₀) (.start config) as
  have hs := hs₀.run as
  have ht := run_tended (.inr ht₀) as
  generalize (start name config hook).run as = s at hl hs ht
  constructor
  case highest =>
    intro a
    rcases act_cases hs ht a with hi | ⟨taken, l, hturn, -, hp, -⟩
    · obtain ⟨es, hp, hes⟩ := hi.past
      refine ⟨es, hp, fun m hm => ?_⟩
      obtain ⟨_, _, he⟩ := hes _ hm
      exact absurd he nofun
    · rcases hturn.rounds hsteady.numbered hl.classed with ⟨es, hq⟩ | hr
      · refine ⟨es, ?_, fun m hm => absurd hm (hq.unsent m)⟩
        rw [hp, hq.log, hs.keeps.log, List.append_nil]
      · obtain ⟨es, hlog, hes⟩ := hr.first
        refine ⟨es, by rw [hp, hlog, hs.keeps.log, List.append_nil], fun m hm => ?_⟩
        obtain ⟨c, rest, hget, hnone⟩ := hes m hm
        obtain rfl := hl.classed c m (by simp [hget])
        exact ⟨⟨rest, hget⟩, hnone⟩
  case accepted =>
    intro x y hxy hc
    have hp := (hl.pairs x y (by rwa [hs.keeps.log]) hc).precedes
    rwa [hs.keeps.log] at hp
  case inLine => exact inLine hsteady.numbered hs ht hl
  case resent =>
    intro hw g woken queue hi
    have htended : s.Tended := ht.resolve_left (by simp [hw])
    obtain ⟨hstate, rfl⟩ := htended.current hi
    obtain ⟨hloop, -⟩ := Queue.of_nextInput hi
    refine ⟨fun c => ?_, inLine hsteady.numbered hs.turn htended.turn
      (run_lined hsteady.numbered hs ht hl [.turn])⟩
    have hb : s.turn.queue.loop.buckets =
        ((s.queue.loop.opened s.queue.loop.generation).retryPending s.now).buckets := by
      rw [turn_waiting hw hi rfl, absorb_queue]
      change (queue.loop.onControl s.now (.connected s.queue.loop.generation)).buckets = _
      rw [hloop, Loop.onControl, if_neg (by simp [hstate])]
    have ho := s.queue.loop.opened_spares s.queue.loop.generation
    rw [hb, Loop.retryPending_get, ho.receivers, ho.buckets]

/-- Two messages wait and a third one is in line when the link was opened anew. -/
theorem written_in_order_reopened :
    let m : Parcel := .rehearsed { (default : Rehearsed) with
      traffic := .standard, parts := [([], .directive .recvAgain)] }
    let s := (start (M := Parcel) default .standard .ignored).run
      [.turn, .decide 1 none, .report ⟨0⟩ 1, .trySend m, .trySend m, .turn, .turn, .turn, .turn,
        .turn, .reopen ⟨1⟩, .turn, .trySend m, .turn, .turn, .decide 2 none, .report ⟨2⟩ 2]
    Steady (Message.traffic (M := Parcel)) ∧
      (Loop.numbers s.queue.loop.receivers = [0, 1] ∧
        s.turn.queue.loop.buckets.standard.map (·.number) = [0, 1, 2]) ∧ s.Orderly :=
  ⟨Parcel.steady_traffic, by decide, written_in_order Parcel.steady_traffic ..⟩

end Station

end Hearth.Link

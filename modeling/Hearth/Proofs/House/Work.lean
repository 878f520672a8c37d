import Hearth.Proofs.Session.Renumbering
import Hearth.Strand.Step

/-!
# Work on a house

Much of a house comes and goes with every piece of work: scopes, the clock, the numbers that are
given out, lines of the log, what links do, the journal and the signals. The rest lasts, and most
work leaves it alone: it only dispatches events, reads words, looks things up or says something.

Work is described by what it keeps: if a property of houses holds when it begins, then it holds when
it ends. If in the property the house before the work is named, this says what the work leaves
unchanged, and a part of the work can write back a house that it read before.

## Main definitions

* `House.bare` : what lasts of a house.
* `House.Lasting` : properties of that alone.
* `House.Stays`, `House.Staying` : what lasts stays, and the links with it.
* `Act.Ensures` : work that keeps a property, and whose value has another one.

## Main results

* `Act.Ensures.bind`, `Act.Ensures.get_bind` : work in parts.
* `Act.ensures_params`, `Act.ensures_makeEvent`, … : work that leaves alone what lasts.
-/

namespace Hearth

/-! ### What lasts -/

namespace House

/-- A house without all that comes and goes. -/
def bare (h : House) : House :=
  { h with
    scopes := .empty
    nextEvent := 0
    nextSequence := 0
    clock := ⟨0⟩
    log := .empty
    nextWait := 0
    links := []
    queues := []
    nextTicket := 0
    answers := []
    journal := []
    signals := [] }

/-- A property of a house that only depends on what lasts. -/
class Lasting (p : House → Prop) : Prop where
  of_bare : ∀ {h h' : House}, h'.bare = h.bare → p h → p h'

/-- What lasts stays, and so do the links; queues may do something, but none comes. -/
structure Stays (h h' : House) : Prop where
  bare : h'.bare = h.bare
  links : h'.links = h.links
  queues : h'.queues.length = h.queues.length

/-- A property of a house that only depends on what lasts and on which links there are. -/
class Staying (p : House → Prop) : Prop where
  of_stays : ∀ {h h' : House}, h.Stays h' → p h → p h'

instance (p : House → Prop) [Lasting p] : Staying p where
  of_stays hs := Lasting.of_bare hs.bare

namespace Stays

variable {h h₁ h₂ : House}

theorem refl (h : House) : h.Stays h := ⟨rfl, rfl, rfl⟩

theorem trans (h₁₂ : h.Stays h₁) (h₂₃ : h₁.Stays h₂) : h.Stays h₂ :=
  ⟨h₂₃.bare.trans h₁₂.bare, h₂₃.links.trans h₁₂.links, h₂₃.queues.trans h₁₂.queues⟩

theorem foldl {α : Type} {f : House → α → House} (hf : ∀ (h : House) (x : α), h.Stays (f h x))
    (l : List α) (h : House) : h.Stays (l.foldl f h) := by
  induction l generalizing h with
  | nil => exact .refl h
  | cons x l ih => exact (hf h x).trans (ih _)

end Stays

variable (h : House)

theorem stays_updateQueue (id : QueueId)
    (f : Link.Queue Link.Parcel → Link.Queue Link.Parcel) : h.Stays (h.updateQueue id f) :=
  ⟨rfl, rfl, List.length_modify ..⟩

theorem stays_logAll (level : Level) (texts : List String) : h.Stays (h.logAll level texts) := by
  have hlog : h.Stays { h with log := (h.log.writeAll level texts).1 } := ⟨rfl, rfl, rfl⟩
  refine hlog.trans (.foldl (fun h l => ?_) _ _)
  cases l <;> exact ⟨rfl, rfl, rfl⟩

theorem stays_logLines (level : Level) (texts : List String) :
    h.Stays (h.logLines level texts) :=
  .foldl (fun h _ => h.stays_logAll level _) _ _

theorem stays_processFailure (failure : Failure) (w : Worker) :
    h.Stays (h.processFailure failure w) := by
  unfold processFailure
  split
  · exact h.stays_logAll _ _
  · exact ⟨rfl, rfl, rfl⟩
  · exact .refl h

theorem stays_dispatchFailure (failure : Failure) : h.Stays (h.dispatchFailure failure).1 := by
  rw [dispatchFailure]
  split
  · exact .refl h
  · exact .foldl (fun h w => h.stays_processFailure failure w) _ _

theorem stays_reportError (e : ScriptError) : h.Stays (h.reportError e) :=
  h.stays_dispatchFailure _

theorem stays_answerOf (m : Link.Parcel) (e : Option QueueError) : h.Stays (h.answerOf m e) := by
  cases m <;> exact ⟨rfl, rfl, rfl⟩

theorem stays_output (id : QueueId) (o : Link.Output Link.Parcel) : h.Stays (h.output id o) := by
  have hnoted : h.Stays (h.note (.link id h.now o)) := ⟨rfl, rfl, rfl⟩
  unfold output
  split
  case h_3 =>
    split
    · split <;> exact ⟨rfl, rfl, rfl⟩
    · exact .refl h
  case h_4 | h_5 => exact hnoted.trans (stays_answerOf _ _ _)
  all_goals exact ⟨rfl, rfl, rfl⟩

theorem stays_effects (id : QueueId) (es : List (Link.Effect Link.Parcel)) :
    h.Stays (h.effects id es) := by
  refine .foldl (fun h e => ?_) es h
  split
  · exact ⟨rfl, rfl, rfl⟩
  · exact h.stays_output id _

theorem stays_turn (id : QueueId) : h.Stays (h.turn id) := by
  rw [turn]
  split
  · exact .refl h
  · next q hq =>
    have heffects := (h.stays_updateQueue id fun _ => (q.turn h.now).2).trans
      (stays_effects _ id (q.turn h.now).1)
    dsimp only
    split
    · exact heffects
    · exact heffects.trans ⟨rfl, rfl, rfl⟩

theorem stays_send (id : QueueId) (job : Link.JobId) (m : Link.Parcel) :
    h.Stays (h.send id job m).2 := by
  rw [send]
  split
  · exact h.stays_output id (.failed m .closed)
  · next q hq =>
    have heffects := (h.stays_updateQueue id fun _ => (q.send job m).2.2).trans
      (stays_effects _ id (q.send job m).2.1)
    dsimp only
    split
    · exact heffects.trans ⟨rfl, rfl, rfl⟩
    · exact heffects

theorem stays_post (id : QueueId) (job : Link.JobId) (c : Link.Control) :
    h.Stays (h.post id job c).2 := by
  rw [post]
  split
  · exact .refl h
  · next q hq =>
    have hposted := h.stays_updateQueue id fun _ => (q.post job c).2
    dsimp only
    split
    · exact hposted.trans ⟨rfl, rfl, rfl⟩
    · exact hposted

/-- Beside the waits only the signals change when all waits are cancelled. -/
theorem stays_cancelWaits : Stays { h with waits := [] } (Act.cancelWaits h) :=
  .foldl (f := fun h (x : Name × Waiting) => h.signal (.waitGone x.2.token))
    (fun _ _ => ⟨rfl, rfl, rfl⟩) h.waits _

/-- What changes in a house while text is interpreted are the clock and the numbers that are given
out. -/
theorem SameChange.stays {h h' k k' : House} (hchange : h.SameChange h' k k') : h.Stays h' := by
  obtain ⟨c, e, w, rfl, -⟩ := hchange
  exact ⟨rfl, rfl, rfl⟩

end House

open House (Lasting Staying)

/-! ### Work in parts -/

namespace Act

variable {α β : Type} {p : House → Prop}

/-- Work that keeps a property of houses, and whose value, if there is one, has another property. -/
def Ensures (p : House → Prop) (a : Act α) (q : α → Prop) : Prop :=
  ∀ h, p h → p (a.runOn h).2 ∧ ∀ x, (a.runOn h).1 = .ok x → q x

/-- Work that keeps a property of houses. -/
abbrev Upholds (p : House → Prop) (a : Act α) : Prop := a.Ensures p fun _ => True

theorem runOn_tryCatch (a : Act α) (b : ScriptError → Act α) (h : House) :
    (tryCatch a b).runOn h =
      match a.runOn h with
      | (.ok x, h) => (.ok x, h)
      | (.error e, h) => (b e).runOn h := by
  simp only [runOn, ExceptT.run_tryCatch, StateT.run_bind]
  generalize StateT.run (ExceptT.run a) h = r
  obtain ⟨_ | x, h'⟩ := r <;> rfl

theorem runOn_get_bind (b : House → Act α) (h : House) :
    (MonadState.get >>= b).runOn h = (b h).runOn h := by
  rw [runOn_bind]
  rfl

theorem runOn_set_bind (k : House) (b : PUnit → Act α) (h : House) :
    (MonadStateOf.set k >>= b).runOn h = (b ⟨⟩).runOn k := by
  rw [runOn_bind]
  rfl

theorem runOn_update_bind (f : House → House) (b : Unit → Act α) (h : House) :
    (update f >>= b).runOn h = (b ()).runOn (f h) := by
  rw [runOn_bind]
  rfl

theorem runOn_perform_bind (f : House → β × House) (b : β → Act α) (h : House) :
    (perform f >>= b).runOn h = (b (f h).1).runOn (f h).2 := by
  rw [runOn_bind]
  rfl

namespace Ensures

variable {q : α → Prop} {r : β → Prop}

theorem pure {x : α} (hx : q x) : (Pure.pure x : Act α).Ensures p q := by
  refine fun h hh => ⟨hh, ?_⟩
  rintro x ⟨⟩
  exact hx

theorem throw (e : ScriptError) : (MonadExcept.throw e : Act α).Ensures p q :=
  fun _ hh => ⟨hh, nofun⟩

theorem throw_bind (e : ScriptError) (b : β → Act α) : (MonadExcept.throw e >>= b).Ensures p q :=
  fun _ hh => ⟨hh, nofun⟩

theorem weaken {q' : α → Prop} {a : Act α} (ha : a.Ensures p q) (hq : ∀ x, q x → q' x) :
    a.Ensures p q' := fun h hh => ⟨(ha h hh).1, fun x hx => hq x ((ha h hh).2 x hx)⟩

theorem set {h : House} (hh : p h) : (MonadStateOf.set h : Act PUnit).Upholds p :=
  fun _ _ => ⟨hh, fun _ _ => trivial⟩

theorem update {f : House → House} (hf : ∀ h, p h → p (f h)) : (Act.update f).Upholds p :=
  fun h hh => ⟨hf h hh, fun _ _ => trivial⟩

theorem perform {f : House → α × House} (hf : ∀ h, p h → p (f h).2) : (Act.perform f).Upholds p :=
  fun h hh => ⟨hf h hh, fun _ _ => trivial⟩

theorem ofExcept (x : Except ScriptError α) : (Act.ofExcept x).Upholds p := by
  cases x <;> exact fun _ hh => ⟨hh, fun _ _ => trivial⟩

theorem ofEvent (x : Except EventError α) : (Act.ofEvent x).Upholds p := by
  cases x <;> exact fun _ hh => ⟨hh, fun _ _ => trivial⟩

theorem bind {a : Act β} {b : β → Act α} (ha : a.Ensures p r)
    (hb : ∀ x, r x → (b x).Ensures p q) : (a >>= b).Ensures p q := by
  intro h hh
  have hfirst := ha h hh
  rw [runOn_bind]
  generalize a.runOn h = s at hfirst ⊢
  obtain ⟨_ | x, h₁⟩ := s
  · exact ⟨hfirst.1, nofun⟩
  · exact hb x (hfirst.2 x rfl) h₁ hfirst.1

/-- Work that begins with a look at the house. -/
theorem get_bind {b : House → Act α} (hb : ∀ h, p h → (b h).Ensures p q) :
    (MonadState.get >>= b).Ensures p q := by
  intro h hh
  rw [runOn_get_bind]
  exact hb h hh h hh

theorem get : (MonadState.get : Act House).Upholds p := fun _ hh => ⟨hh, fun _ _ => trivial⟩

theorem tryCatch {a : Act α} {b : ScriptError → Act α} (ha : a.Ensures p q)
    (hb : ∀ e, (b e).Ensures p q) : (MonadExcept.tryCatch a b).Ensures p q := by
  intro h hh
  have hfirst := ha h hh
  have hrun := runOn_tryCatch a b h
  rw [hrun]
  generalize a.runOn h = s at hfirst ⊢
  obtain ⟨e | x, h₁⟩ := s
  · exact hb e h₁ hfirst.1
  · exact hfirst

theorem forM (l : List β) {f : β → Act Unit} (hf : ∀ x, (f x).Upholds p) :
    (l.forM f).Upholds p := by
  induction l with
  | nil => exact .pure trivial
  | cons x l ih => exact .bind (hf x) fun _ _ => ih

/-! ### Work that leaves alone what lasts -/

section

variable [Staying p]

theorem update_stays {f : House → House} (hf : ∀ h : House, h.Stays (f h)) :
    (Act.update f).Upholds p := .update fun h => Staying.of_stays (hf h)

theorem perform_stays {f : House → α × House} (hf : ∀ h : House, h.Stays (f h).2) :
    (Act.perform f).Upholds p := .perform fun h => Staying.of_stays (hf h)

end

theorem update_bare [Lasting p] {f : House → House} (hf : ∀ h, (f h).bare = h.bare) :
    (Act.update f).Upholds p := .update fun h => Lasting.of_bare (hf h)

theorem perform_bare [Lasting p] {f : House → α × House} (hf : ∀ h, (f h).2.bare = h.bare) :
    (Act.perform f).Upholds p := .perform fun h => Lasting.of_bare (hf h)

end Ensures

section

variable [Staying p]

theorem ensures_readClock : (perform House.readClock).Upholds p := .perform_stays fun _ => ⟨rfl, rfl, rfl⟩

theorem ensures_makeEvent (name : Name) (scope : ScopeId) : (makeEvent name scope).Upholds p :=
  .bind ensures_readClock fun _ _ => .bind .get fun _ _ => .bind (.ofEvent _) fun _ _ =>
    .bind (.update_stays fun _ => ⟨rfl, rfl, rfl⟩) fun _ _ => .pure trivial

theorem ensures_params (x : Phrase) (scope : ScopeId) : (params x scope).Upholds p := by
  rw [params]
  split
  · exact .pure trivial
  · exact .bind ensures_readClock fun _ _ => .bind .get fun _ _ => .bind (.ofEvent _) fun _ _ =>
      .bind (.update_stays fun _ => ⟨rfl, rfl, rfl⟩) fun _ _ => .pure trivial

theorem ensures_say (line : String) : (say line).Upholds p := .update_stays fun _ => ⟨rfl, rfl, rfl⟩

theorem ensures_derive (scope : ScopeId) (extra : Option ScopeId) (seed : List (String × Json)) :
    (derive scope extra seed).Upholds p := .perform_stays fun _ => ⟨rfl, rfl, rfl⟩

omit [Staying p] in
theorem ensures_resolve (words : Name) : (resolve words).Upholds p := by
  rw [resolve]
  refine .get_bind fun h hh => ?_
  split
  · exact .pure trivial
  · exact .throw _

theorem ensures_sayList (lines : List String) : (sayList lines).Upholds p :=
  .bind (.forM lines ensures_say) fun _ _ => ensures_say "."

theorem ensures_list (words : Name) : (list words).Upholds p := by
  rw [list]
  refine .bind ensures_readClock fun _ _ => ?_
  split
  · exact .get_bind fun h hh => ensures_sayList _
  · refine .bind (ensures_resolve words) fun x _ => ?_
    obtain ⟨c, item⟩ := x
    dsimp only
    split
    · exact .get_bind fun h hh => ensures_sayList _
    · refine .get_bind fun h hh => ?_
      split
      · exact ensures_sayList _
      · exact .throw _

theorem ensures_condition (c : Condition) (args : Name) : (c.check args).Upholds p := by
  have htest : Upholds p (do ofExcept (c.test (← MonadState.get) args)) :=
    .get_bind fun h hh => .ofExcept _
  unfold Condition.check
  split
  · exact .bind (.update_stays fun _ => ⟨rfl, rfl, rfl⟩) fun _ _ => htest
  · exact htest

/-- A check of the words that name a condition. -/
theorem ensures_checkWords (want : Bool) (words : Name) : Upholds p (do
    if words.isEmpty then throw (.usage "if [not] condition…")
    match (← MonadState.get).conditions.lookup (fun _ _ => true) words with
    | some (n, c) => return (← c.check (words.drop n)) == want
    | none => throw (.unknownWord words "conditions")) := by
  dsimp only
  split
  · exact .throw_bind _ _
  · refine .get_bind fun h hh => ?_
    split
    · exact .bind (ensures_condition _ _) fun _ _ => .pure trivial
    · exact .throw _

theorem ensures_check (words : Name) : (check words).Upholds p := by
  unfold check
  exact ensures_checkWords _ _

end

section

variable [Lasting p]

theorem ensures_openLink (name : Name) (ondemand : Option Bool) :
    (openLink name ondemand).Upholds p :=
  .get_bind fun _ _ => .bind (.perform_bare fun _ => rfl) fun _ _ => .update_bare fun _ => rfl

theorem ensures_takeLink (name : Name) : (takeLink name).Upholds p := by
  rw [takeLink]
  refine .get_bind fun h hh => ?_
  split
  · exact .bind (.set (Lasting.of_bare (h := h) rfl hh)) fun _ _ => .pure trivial
  · exact .throw _

end

end Act

/-! ### Sessions and pauses -/

namespace Strand

variable (h : House)

theorem stays_follow (s : Session) (progress : Progress) (rest : List Input) (use : SessionUse) :
    h.Stays (follow h s progress rest use).1 := by
  cases progress with
  | ready => exact .refl h
  | run statement => exact .refl h
  | failed e => cases use <;> exact ⟨rfl, rfl, rfl⟩

theorem feed_cons (s : Session) (i : Input) (rest : List Input) (use : SessionUse) :
    feed h s (i :: rest) use =
      follow (s.take h i).1 (s.take h i).2.1 (s.take h i).2.2 rest use := by
  cases i with
  | line text => simp only [feed, Session.take]
  | finish => simp only [feed, Session.take]

theorem stays_feed (s : Session) (inputs : List Input) (use : SessionUse) :
    h.Stays (feed h s inputs use).1 := by
  cases inputs with
  | nil => exact .refl h
  | cons i rest =>
    have htake := (Session.take_same (.refl h) (Eq.refl s.unlined) i).change.stays
    rw [feed_cons]
    exact htake.trans (stays_follow _ _ _ _ _)

theorem stays_posted {r : Link.Posting × House} (hr : h.Stays r.2) : h.Stays (posted r).2 := by
  unfold posted
  split <;> exact hr

theorem stays_poll (job : Link.JobId) (p : Pause) : h.Stays (poll job h p).2 := by
  unfold poll
  split
  · exact .refl h
  · split
    · exact .refl h
    · split <;> exact .refl h
  · exact stays_posted h (h.stays_send _ job _)
  · exact stays_posted h (h.stays_post _ job _)
  · split
    · split <;> exact ⟨rfl, rfl, rfl⟩
    · exact .refl h
  · exact .refl h
  · split
    · exact .refl h
    · split
      · exact .refl h
      · split <;> exact .refl h

end Strand

end Hearth

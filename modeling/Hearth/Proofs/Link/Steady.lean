import Hearth.Link.Spares

/-!
# Steady messages

A message can change with every call. What it answers to a question is steady if no call changes it.
After data was offered to messages that wait, they are still the same ones, as far as they are
steady; after a reconnect some of them go on waiting and some are to be written again, both in their
order.

## Main definitions

* `Steady` : an answer that no call changes.
* `Loop.kept`, `Loop.resent` : the messages that go on waiting after a reconnect, and those that are
  written again.

## Main results

* `Loop.map_of_offer_none`, `Loop.map_of_offer_some` : what is left of messages after data was
  offered to them.
* `Loop.retryPending_receivers`, `Loop.retryPending_get` : where messages are after a reconnect.
-/

namespace Hearth.Link

variable {M : Type} {α : Type}

/-- An answer of messages that no call changes. -/
structure Steady [Message M] (f : M → α) : Prop where
  send : ∀ m, f (Message.send m).1 = f m
  recv : ∀ m data, f (Message.recv m data).1 = f m
  retry : ∀ m, f (Message.retry m).1 = f m

/-- A number of its own does not make a message less steady. -/
theorem Steady.numbered [Message M] {f : M → α} (h : Steady f) :
    Steady fun m : Numbered M => f m.body :=
  ⟨fun m => h.send m.body, fun m data => h.recv m.body data, fun m => h.retry m.body⟩

/-! ### The messages there are -/

/-- What does not depend on the answers that are left of a rehearsed message, nor on the retries
that are left of a line, is steady. -/
theorem Parcel.steady {f : Parcel → α}
    (hline : ∀ (m : Line) retries reply, f (.line { m with retries, reply }) = f (.line m))
    (hrehearsed : ∀ (m : Rehearsed) parts replies retries heard recalled,
      f (.rehearsed { m with parts, replies, retries, heard, recalled }) = f (.rehearsed m)) :
    Steady f where
  send m := by
    cases m with
    | line m =>
      have hs : (Message.send m).1 = m := by
        dsimp only [Message.send]
        split <;> rfl
      exact congrArg (fun m => f (.line m)) hs
    | rehearsed m =>
      have hs : ∃ parts, (Message.send m).1 = { m with parts } := by
        dsimp only [Message.send]
        split
        · exact ⟨_, rfl⟩
        · split <;> exact ⟨_, rfl⟩
      obtain ⟨parts, hs⟩ := hs
      exact (congrArg (fun m => f (.rehearsed m)) hs).trans (hrehearsed m ..)
    | plain m => rfl
  recv m data := by
    cases m with
    | line m => exact hline m ..
    | rehearsed m =>
      have hs : ∃ replies heard, (Message.recv m data).1 = { m with replies, heard } := by
        dsimp only [Message.recv]
        split
        · exact ⟨_, _, rfl⟩
        · split <;> exact ⟨_, _, rfl⟩
      obtain ⟨replies, heard, hs⟩ := hs
      exact (congrArg (fun m => f (.rehearsed m)) hs).trans (hrehearsed m ..)
    | plain m => rfl
  retry m := by
    cases m with
    | line m =>
      have hs : ∃ retries, (Message.retry m).1 = { m with retries } := by
        dsimp only [Message.retry]
        split
        · exact ⟨_, rfl⟩
        · exact ⟨_, rfl⟩
      obtain ⟨retries, hs⟩ := hs
      exact (congrArg (fun m => f (.line m)) hs).trans (hline m ..)
    | rehearsed m =>
      have hs : ∃ retries recalled, (Message.retry m).1 = { m with retries, recalled } := by
        dsimp only [Message.retry]
        split <;> exact ⟨_, _, rfl⟩
      obtain ⟨retries, recalled, hs⟩ := hs
      exact (congrArg (fun m => f (.rehearsed m)) hs).trans (hrehearsed m ..)
    | plain m => rfl

theorem Parcel.steady_traffic : Steady (Message.traffic (M := Parcel)) :=
  Parcel.steady (fun _ _ _ => rfl) fun _ _ _ _ _ _ => rfl

theorem Parcel.steady_blocking : Steady (Message.blocking (M := Parcel)) :=
  Parcel.steady (fun _ _ _ => rfl) fun _ _ _ _ _ _ => rfl

namespace Loop

variable [Message M] {f : M → α}

/-! ### After data came in -/

/-- The messages that were offered data no one took are still the same ones. -/
theorem map_of_offer_none (hf : Steady f) {data : Bytes} {ps all : List (Pending M)}
    {l l' : Loop M} (h : offer data ps l = (l', all, none)) :
    ps.map (fun p => f p.message) = all.map fun p => f p.message := by
  induction ps generalizing l l' all with
  | nil =>
    obtain ⟨-, rfl⟩ : _ ∧ _ := by simpa [offer] using h
    rfl
  | cons p ps ih =>
    dsimp only [offer] at h
    split at h
    · next m hm =>
      obtain ⟨-, rfl, hn⟩ : _ ∧ _ ∧ _ := by simpa using h
      have hp : f m = f p.message := by
        rw [← hf.recv p.message data, hm]
      have ht := ih (l := l.ask p.message (.recv data)) (Prod.ext rfl (Prod.ext rfl hn))
      rw [List.map_cons, List.map_cons, ht]
      exact congrArg (· :: _) hp.symm
    · simp at h

/-- The message that took data is one of those that wait, between those before and those after. -/
theorem map_of_offer_some (hf : Steady f) {data : Bytes} {ps before after : List (Pending M)}
    {p : Pending M} {answer : Except QueueError RecvDirective} {l l' : Loop M}
    (h : offer data ps l = (l', before, some (p, answer, after))) :
    ps.map (fun p => f p.message) =
      before.map (fun p => f p.message) ++ f p.message :: after.map fun p => f p.message := by
  induction ps generalizing l l' before with
  | nil => simp [offer] at h
  | cons q ps ih =>
    dsimp only [offer] at h
    split at h
    · next m hm =>
      obtain ⟨-, rfl, hn⟩ : _ ∧ _ ∧ _ := by simpa using h
      have hp : f m = f q.message := by
        rw [← hf.recv q.message data, hm]
      have ht := ih (l := l.ask q.message (.recv data)) (Prod.ext rfl (Prod.ext rfl hn))
      rw [List.map_cons, List.map_cons, List.cons_append, ht]
      exact congrArg (· :: _) hp.symm
    · next m answer' _ hm =>
      obtain ⟨-, rfl, rfl, -, rfl⟩ : _ ∧ _ ∧ _ ∧ _ ∧ _ := by simpa using h
      have hp : f m = f q.message := by
        rw [← hf.recv q.message data, hm]
      exact congrArg (· :: _) hp.symm

/-! ### After a reconnect -/

/-- The messages that go on waiting after a reconnect. -/
def kept (now : Nat) (ps : List (Pending M)) : List (Pending M) :=
  ps.filterMap fun p =>
    match Message.retry p.message with
    | (m, .recvAgain) => some ⟨m, deadline now m⟩
    | _ => none

/-- The messages that are to be written again after a reconnect. -/
def resent (ps : List (Pending M)) : List M :=
  ps.filterMap fun p =>
    match Message.retry p.message with
    | (m, .sendAgain) => some m
    | _ => none

theorem retryMany_eq (now : Nat) (ps : List (Pending M)) (r : Loop M × List M) :
    (ps.foldl (retryOne now) r).1.receivers = r.1.receivers ++ kept now ps ∧
      (ps.foldl (retryOne now) r).1.buckets = r.1.buckets ∧
      (ps.foldl (retryOne now) r).2 = r.2 ++ resent ps := by
  induction ps generalizing r with
  | nil => simp [kept, resent]
  | cons p ps ih =>
    obtain ⟨hr, hb, hs⟩ := ih (retryOne now r p)
    rw [List.foldl_cons, hr, hb, hs, kept, kept, resent, resent, List.filterMap_cons,
      List.filterMap_cons]
    dsimp only [retryOne]
    cases hd : Message.retry p.message with
    | mk m directive =>
      cases directive
      case sendAgain => simp [put, ask]
      case recvAgain => simp [put, ask, await]
      case abandon => simp [put, ask]

theorem pushFrontMany_receivers (ms : List M) (l : Loop M) :
    (ms.foldr (fun m l => l.pushFront m) l).receivers = l.receivers := by
  induction ms with
  | nil => rfl
  | cons m ms ih => exact ih

/-- Those that go on waiting keep their order. -/
theorem retryPending_receivers (now : Nat) (l : Loop M) :
    (l.retryPending now).receivers = kept now l.receivers := by
  obtain ⟨hr, -, -⟩ := retryMany_eq now l.receivers ({ l with receivers := [] }, [])
  dsimp only [retryPending]
  rw [pushFrontMany_receivers, hr]
  rfl

end Loop

namespace Buckets

theorem get_set (b : Buckets M) (c c' : Traffic) (ms : List M) :
    (b.set c ms).get c' = if c' = c then ms else b.get c' := by
  cases c <;> cases c' <;> rfl

theorem get_pushFront (b : Buckets M) (c c' : Traffic) (m : M) :
    (b.pushFront c m).get c' = if c' = c then m :: b.get c' else b.get c' := by
  rw [pushFront, get_set]
  split
  · next h => rw [h]
  · rfl

theorem get_pushBack (b : Buckets M) (c c' : Traffic) (m : M) :
    (b.pushBack c m).get c' = if c' = c then b.get c' ++ [m] else b.get c' := by
  rw [pushBack, get_set]
  split
  · next h => rw [h]
  · rfl

theorem mem_all {b : Buckets M} {m : M} : m ∈ b.all ↔ ∃ c, m ∈ b.get c := by
  constructor
  · intro h
    simp only [all, List.mem_append] at h
    rcases h with ((h | h) | h) | h
    · exact ⟨.control, h⟩
    · exact ⟨.urgent, h⟩
    · exact ⟨.standard, h⟩
    · exact ⟨.background, h⟩
  · rintro ⟨c, h⟩
    cases c <;> simp_all [all, get]

end Buckets

namespace Loop

variable [Message M]

theorem pushFrontMany_get (ms : List M) (l : Loop M) (c : Traffic) :
    (ms.foldr (fun m l => l.pushFront m) l).buckets.get c =
      ms.filter (Message.traffic · = c) ++ l.buckets.get c := by
  induction ms with
  | nil => rfl
  | cons m ms ih =>
    have hm : ((m :: ms).foldr (fun m l => l.pushFront m) l).buckets =
        (ms.foldr (fun m l => l.pushFront m) l).buckets.pushFront (Message.traffic m) m := rfl
    rw [hm, Buckets.get_pushFront, ih, List.filter_cons]
    by_cases hc : Message.traffic m = c
    · simp [hc]
    · simp [hc, Ne.symm hc]

/-- Those that are written again come first, in their order. -/
theorem retryPending_get (now : Nat) (l : Loop M) (c : Traffic) :
    (l.retryPending now).buckets.get c =
      (resent l.receivers).filter (Message.traffic · = c) ++ l.buckets.get c := by
  obtain ⟨-, hb, hs⟩ := retryMany_eq now l.receivers ({ l with receivers := [] }, [])
  dsimp only [retryPending]
  rw [pushFrontMany_get, hb, hs]
  rfl

end Loop

end Hearth.Link

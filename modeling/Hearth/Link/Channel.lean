/-!
# Channels

A channel holds items until they are taken, as many as it has room for. Who finds no room waits in
line; room that becomes free is granted to the first in line, who then puts the item when it is
its turn to run. A closed channel takes no more items.
-/

namespace Hearth.Link

/-- A strand of work that can wait, by number. -/
structure JobId where
  value : Nat
  deriving Repr, DecidableEq, Inhabited

/-- What became of an item that was to be put into a channel. -/
inductive Posting where
  | put
  | full
  | closed
  deriving Repr, DecidableEq, Inhabited

/-- A channel for items. -/
structure Channel (α : Type) where
  capacity : Nat
  /-- The items that were put and not taken, oldest first. -/
  items : List α
  /-- Who was granted room and has not put an item yet. -/
  granted : List JobId
  /-- Who waits for room, longest first. -/
  waiting : List JobId
  closed : Bool
  deriving Repr, Inhabited

namespace Channel

variable {α : Type}

/-- An empty channel; it has room for at least one item. -/
def ofCapacity (n : Nat) : Channel α := ⟨max n 1, [], [], [], false⟩

/-- The room that nobody uses or was granted. -/
def free (c : Channel α) : Nat := c.capacity - c.items.length - c.granted.length

/-- Puts an item into free room. -/
def put? (c : Channel α) (x : α) : Option (Channel α) :=
  if 0 < c.free then some { c with items := c.items ++ [x] } else none

/-- Joins the line. -/
def join (c : Channel α) (id : JobId) : Channel α := { c with waiting := c.waiting ++ [id] }

/-- Was the strand granted room? -/
def isGranted (c : Channel α) (id : JobId) : Bool := c.granted.contains id

/-- Puts an item into granted room. -/
def putGranted (c : Channel α) (id : JobId) (x : α) : Channel α :=
  { c with granted := c.granted.filter (· != id), items := c.items ++ [x] }

/-- Leaves the line, and gives up room that was granted. -/
def leave (c : Channel α) (id : JobId) : Channel α :=
  { c with granted := c.granted.filter (· != id), waiting := c.waiting.filter (· != id) }

/-- Takes the oldest item; the room goes to the first in line, who is told. -/
def take? (c : Channel α) : Option (α × Option JobId × Channel α) :=
  match c.items, c.waiting with
  | [], _ => none
  | x :: items, [] => some (x, none, { c with items })
  | x :: items, id :: waiting =>
    some (x, some id, { c with items, waiting, granted := c.granted ++ [id] })

/-- Takes all items, also those of strands that are granted room on the way and have not run. -/
def takeAll (c : Channel α) : List α × List JobId × Channel α :=
  let woken := c.waiting.take c.items.length
  (c.items, woken,
    { c with
      items := []
      granted := c.granted ++ woken
      waiting := c.waiting.drop c.items.length })

/-- Closes the channel; everybody in line is told. -/
def close (c : Channel α) : List JobId × Channel α :=
  (c.waiting, { c with closed := true, waiting := [] })

/-- Puts an item if the channel has room or room was granted to the strand, which otherwise joins
the line. -/
def offer (c : Channel α) (job : JobId) (x : α) : Posting × Channel α :=
  if c.closed then (.closed, c.leave job)
  else if c.isGranted job then (.put, c.putGranted job x)
  else
    match c.put? x with
    | some c => (.put, c)
    | none => (.full, if c.waiting.contains job then c else c.join job)

/-! ## What becomes of an item -/

theorem eq_of_put? {c c' : Channel α} {x : α} (h : c.put? x = some c') :
    c' = { c with items := c.items ++ [x] } := by
  unfold put? at h
  split at h
  · exact (Option.some.inj h).symm
  · simp at h

/-- The oldest item is taken, whoever is in line. -/
theorem of_take? {c c' : Channel α} {x : α} {woken : Option JobId}
    (h : c.take? = some (x, woken, c')) : c'.closed = c.closed ∧ c.items = x :: c'.items := by
  unfold take? at h
  split at h
  · simp at h
  · next hi _ =>
    obtain ⟨rfl, -, rfl⟩ : _ ∧ _ ∧ _ := by simpa using h
    exact ⟨rfl, hi⟩
  · next hi _ =>
    obtain ⟨rfl, -, rfl⟩ : _ ∧ _ ∧ _ := by simpa using h
    exact ⟨rfl, hi⟩

theorem offer_closed (c : Channel α) (job : JobId) (x : α) :
    (c.offer job x).2.closed = c.closed := by
  unfold offer
  split
  · rfl
  · split
    · rfl
    · split
      · next h => rw [eq_of_put? h]
      · split <;> rfl

/-- An item is refused if the channel is closed, and only then. -/
theorem offer_eq_closed (c : Channel α) (job : JobId) (x : α) :
    (c.offer job x).1 = .closed ↔ c.closed = true := by
  unfold offer
  split
  · next h => simpa using h
  · next h =>
    split
    · simpa using h
    · split <;> simpa using h

/-- An item is put behind all others, or nowhere. -/
theorem offer_items (c : Channel α) (job : JobId) (x : α) :
    (c.offer job x).2.items = if (c.offer job x).1 = .put then c.items ++ [x] else c.items := by
  unfold offer
  split
  · rfl
  · split
    · rfl
    · split
      · next h => rw [eq_of_put? h, if_pos rfl]
      · split <;> rfl

end Channel

end Hearth.Link

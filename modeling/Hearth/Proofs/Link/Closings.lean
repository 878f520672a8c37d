import Hearth.Proofs.Link.Coherence
import Hearth.Proofs.Link.Course
import Mathlib.Data.List.Induction

/-!
# Which transports are closed

A transport that an attempt to connect produced is first the attempt's, then it is announced in the
control channel, and then it is the loop's, which closes it. So it is closed once, if the loop takes
notice of it before it stops. A transport that is still the attempt's then, or announced, is not
closed at all: the loop drops the items that are left in its channel and ends the attempt.

## Main definitions

* `Loop.transports` : the transports of a generation that a loop has, or has closed.
* `Station.landed` : those that it has not taken notice of yet.
* `Station.Produced` : an attempt of a run produced a transport.

## Main results

* `Station.Tended.proceeds` : what a turn does that is not the last one.
* `Station.closed_or_stranded` : which transports are closed when the loop has stopped.
-/

namespace Hearth.Link

variable {M : Type}

/-- Does an output close the transport of a generation? -/
def Output.closes (g : Nat) : Output M → Bool
  | .closed g' => g' == g
  | _ => false

/-! ### The transports of a loop -/

namespace Loop

/-- The transports of a generation that a loop has, or has closed. -/
def transports (past : List (Output M)) (g : Nat) (l : Loop M) : Nat :=
  (l.log ++ past).countP (Output.closes g) + if l.conn = some g then 1 else 0

section Transports

variable {past : List (Output M)} {g : Nat} {l l' : Loop M}

/-- What neither opens nor closes a transport. -/
theorem transports_of_log (es : List (Output M)) (hl : l'.log = es ++ l.log)
    (hes : ∀ e ∈ es, e.closes g = false) (hc : l'.conn = l.conn) :
    l'.transports past g = l.transports past g := by
  have hnone : es.countP (Output.closes g) = 0 :=
    List.countP_eq_zero.mpr fun e he => by simp [hes e he]
  rw [transports, transports, hl, hc, List.append_assoc, List.countP_append, hnone, Nat.zero_add]

theorem transports_startConnect (hs : l.state.canGo .connecting = true) :
    l.startConnect.transports past g = l.transports past g := by
  rw [Linked.startConnect_eq hs]
  exact transports_of_log [.attempt _] rfl (by simp [Output.closes]) rfl

theorem transports_maybeConnect (l : Loop M) :
    l.maybeConnect.transports past g = l.transports past g := by
  rcases l.maybeConnect_cases with heq | ⟨hs, -, heq⟩
  · rw [heq]
  · rw [heq, transports_startConnect (by rw [hs]; rfl)]

theorem transports_scheduleRetry (now : Nat) (reason : String)
    (hw : l.state.canGo .waiting = true) (hc : l.state.canGo .closed = true) :
    (l.scheduleRetry now reason).transports past g = l.transports past g := by
  rcases scheduleRetry_outcome now l reason hw hc with ⟨-, due, heq⟩ | ⟨-, heq⟩
  · rw [heq]
    exact transports_of_log [] rfl (by simp) rfl
  · rw [heq]
    refine transports_of_log _ rfl (fun e he => ?_) rfl
    obtain ⟨m, -, rfl⟩ := List.mem_map.mp (List.mem_reverse.mp he)
    rfl

/-- A transport that is closed is one that the loop had. -/
theorem transports_disconnected (l : Loop M) (state : State) (reason : String) :
    (l.disconnected state reason).transports past g = l.transports past g := by
  rw [transports, transports, disconnected]
  cases l.conn with
  | none => simp [Output.closes]
  | some c => simp [Output.closes, List.countP_cons]

/-- The transport of an attempt that succeeded is the loop's. -/
theorem transports_opened (hs : l.state = .connecting) (hc : l.conn = none) :
    (l.opened l.generation).transports past g =
      l.transports past g + if some l.generation = some g then 1 else 0 := by
  rw [opened_eq hs, transports, transports, hc]
  simp [Output.closes]

theorem transports_hangUp (l : Loop M) : l.hangUp.transports past g = l.transports past g := by
  rw [hangUp_eq, transports, transports]
  split
  · cases l.conn with
    | none => simp
    | some c => simp [Output.closes, List.countP_cons]
  · rfl

theorem transports_publish (l : Loop M) : l.publish.transports past g = l.transports past g :=
  transports_of_log [.published l.snapshot] rfl (by simp [Output.closes]) rfl

variable [Message M]

theorem Trades.transports (h : l.Trades l') : l'.transports past g = l.transports past g := by
  obtain ⟨es, hl, hes⟩ := h.log
  refine transports_of_log es hl (fun e he => ?_) h.conn
  have hb := hes e he
  cases e
  case closed => exact hb.elim
  all_goals rfl

/-- Every step of the link keeps the transports, but that of an attempt that succeeded is new. -/
theorem Course.transports {now : Nat} {heard : Option Nat} (hc : l.Course now heard l')
    (hconn : l.state = .connecting → l.conn = none) : l'.transports past g =
      l.transports past g + if heard = some g then 1 else 0 := by
  cases hc with
  | opens before connecting after =>
    rw [after.transports, transports_opened connecting
      (before.conn.trans (hconn (before.state.symm.trans connecting))), before.transports]
  | rests before => exact before.transports
  | begins before closed wanted =>
    exact (transports_startConnect (by rw [closed]; rfl)).trans before.transports
  | @resumes l₁ _ before waiting due after =>
    have hgo : State.canGo l₁.state .connecting = true := by rw [waiting]; rfl
    rw [after.transports, transports_startConnect (l := { l₁ with retryAt := none }) hgo]
    exact before.transports
  | @fails l₁ before connecting reason =>
    have hput : ({ l₁ with connecting := none }.emit (.error reason)).transports past g =
        l₁.transports past g :=
      transports_of_log [.notice (.error reason)] rfl (by simp [Output.closes]) rfl
    rw [transports_scheduleRetry now reason, hput, before.transports]
    · rfl
    · change l₁.state.canGo .waiting = true
      rw [connecting]
      rfl
    · change l₁.state.canGo .closed = true
      rw [connecting]
      rfl
  | breaks before connected reason =>
    rw [linkLost_eq connected, transports_scheduleRetry now reason rfl rfl,
      transports_disconnected, before.transports]
    rfl
  | recycles before connected reason =>
    rw [recycle_eq connected, transports_maybeConnect, transports_disconnected, before.transports]
    rfl

/-- A loop that stops closes the transport that it has, if that is the one of an open link. -/
theorem Turn.transports_of_stopped {now : Nat} {stage : Stage} {taken : List M}
    (ht : Turn now stage l taken .stopped l') : l'.transports past g = l.transports past g := by
  cases ht
  obtain ⟨l₁, ht, heq⟩ := l.shutdown_trades taken
  rw [transports_publish, heq, transports_hangUp, ht.transports]

end Transports

end Loop

/-! ### A turn that is not the last one -/

namespace Station

variable [Message M] {s s' : Station M}

/-- `s'` comes from `s` by a turn that takes at most one step of the link. The success that the loop
takes notice of, if any, is taken from the control channel; the attempts that begin have not turned
out. -/
structure Proceeds (s : Station M) (heard : Option Nat) (s' : Station M) : Prop where
  course : ∃ l l', s.queue.loop.Course s.now heard l ∧ (l' = l ∨ l' = l.publish) ∧
    s'.queue.loop = { l' with log := [] } ∧ s'.past = l'.log ++ s.past
  items : ∃ item : Option Control, s.queue.control.items = item.toList ++ s'.queue.control.items ∧
    ∀ g, item = some (.connected g) ↔ heard = some g
  attempts : ∃ begun : List Nat, s'.attempts = s.attempts ++ begun.map (⟨·, none⟩)
  told : s'.told = s.told

/-- A turn that puts out what the loop did, and ends no attempt. -/
theorem Proceeds.of_absorb {heard : Option Nat} {l l' : Loop (Numbered M)}
    {queue : Queue (Numbered M)} {stage : Stage} {es : List (Effect (Numbered M))}
    (hs : s' = (s.become queue stage).absorb es) (hc : s.queue.loop.Course s.now heard l)
    (hpub : l' = l ∨ l' = l.publish) (hl : queue.loop = { l' with log := [] })
    (hes : Queue.outputs es = l'.log.reverse) (ha : .abort ∉ l'.log)
    (hi : ∃ item : Option Control, s.queue.control.items = item.toList ++ queue.control.items ∧
      ∀ g, item = some (.connected g) ↔ heard = some g) : s.Proceeds heard s' := by
  have hnone : .abort ∉ Queue.outputs es := by
    rw [hes, List.mem_reverse]
    exact ha
  subst hs
  refine ⟨⟨l, l', hc, hpub, ?_, past_absorb hes⟩, ?_, ⟨_, absorb_attempts _ es hnone⟩,
    absorb_told ..⟩
  · rw [absorb_queue]
    exact hl
  · rw [absorb_queue]
    exact hi

/-- A turn in which no item is taken from the control channel. -/
theorem Proceeds.of_rest {l l' : Loop (Numbered M)} {queue : Queue (Numbered M)} {stage : Stage}
    {es : List (Effect (Numbered M))} (hs : s' = (s.become queue stage).absorb es)
    (hc : s.queue.loop.Course s.now none l) (hpub : l' = l ∨ l' = l.publish)
    (hl : queue.loop = { l' with log := [] }) (hes : Queue.outputs es = l'.log.reverse)
    (ha : .abort ∉ l'.log) (hi : queue.control = s.queue.control) : s.Proceeds none s' :=
  .of_absorb hs hc hpub hl hes ha ⟨none, by rw [hi]; rfl, by simp⟩

/-- What a loop does in a turn that is not its last one. -/
theorem Tended.proceeds (h : s.Tended) (hst : s.turn.stage ≠ .stopped) :
    s.turn = s ∨ ∃ heard, s.Proceeds heard s.turn := by
  cases hs : s.stage with
  | stopped => exact .inl (by rw [Station.turn, hs])
  | fresh =>
    have hturn : s.turn = (s.become (s.queue.begin s.now).2 .waiting).absorb
        (s.queue.begin s.now).1 := by rw [Station.turn, hs]
    have hl := (h.linked.maybeConnect h.notClosing).1.rests (Loop.publish_rests _)
    exact .inr ⟨none, .of_rest hturn (Loop.maybeConnect_course s.now _) (.inr rfl) rfl
      (Queue.outputs_drain ..) hl.aborts rfl⟩
  | waiting =>
    cases hi : s.queue.nextInput s.now with
    | none => exact .inl (by simp only [Station.turn, hs, hi])
    | some next =>
      obtain ⟨input, woken, queue⟩ := next
      obtain ⟨hl, hw, -, hitems, -⟩ := Queue.of_nextInput hi
      cases hf : input.isFinal with
      | true => exact absurd (by rw [turn_final hs hi hf]; exact absorb_stage ..) hst
      | false =>
        have hlinked : queue.loop.Linked s.past (input.verdicts ++
            (s.attempts.map (·.generation) ++ queue.control.items.filterMap Control.verdict?)) := by
          rw [hl]
          refine h.linked.perm ?_
          rw [outstanding, hitems, List.filterMap_append, ← List.append_assoc, ← List.append_assoc]
          exact List.perm_append_comm.append_right _
        have ha := (hlinked.handle (hl ▸ h.notClosing) s.now).1.aborts
        have hcur (g : Nat) (hg : input = .control (.connected g)) :
            s.queue.loop.state = .connecting ∧ g = s.queue.loop.generation := h.current (hg ▸ hi)
        have hc := Loop.handle_course s.now hcur
        refine .inr ⟨_, .of_absorb (turn_waiting hs hi hf) hc (.inl rfl) (by rw [← hl]; rfl) ?_
          (hl ▸ ha) ⟨input.items.head?, ?_, fun g => ?_⟩⟩
        · rw [Queue.outputs_append, hw, List.nil_append, ← hl]
          exact Queue.outputs_drain ..
        · rw [hitems]
          cases input <;> rfl
        · cases input with
          | control item => cases item <;> simp [Loop.Input.items, Loop.Input.success?]
          | _ => simp [Loop.Input.items, Loop.Input.success?]
  | handled =>
    have hturn : s.turn = (s.become (s.queue.gather s.now).2 .writing).absorb
        (s.queue.gather s.now).1 := by rw [Station.turn, hs]
    have hl := (h.linked.gather h.notClosing s.queue.traffic.items).1
    exact .inr ⟨none, .of_rest hturn (Loop.gather_course s.now _ _) (.inl rfl) rfl
      (s.queue.outputs_gather s.now) hl.aborts rfl⟩
  | writing =>
    have hl := (h.linked.round (h.settled (.inl hs)) s.now).1
    have hc := Loop.round_course s.now s.queue.loop
    have hturn : s.turn = (s.become (s.queue.write s.now).2.2
        (if (s.queue.write s.now).1 then .writing else .waiting)).absorb
          (s.queue.write s.now).2.1 := by rw [Station.turn, hs]
    cases hr : s.queue.loop.round s.now with
    | mk goesOn l =>
      rw [hr] at hl hc
      refine .inr ⟨none, ?_⟩
      cases goesOn with
      | true =>
        rw [Queue.write, hr] at hturn
        exact .of_rest hturn hc (.inl rfl) rfl (Queue.outputs_drain ..) hl.aborts rfl
      | false =>
        rw [Queue.write, hr] at hturn
        exact .of_rest hturn hc (.inr rfl) rfl (Queue.outputs_drain ..)
          (hl.rests l.publish_rests).aborts rfl

/-! ### Every transport that was produced -/

/-- The transports of a generation that the loop has not taken notice of: they are an attempt's, or
announced. -/
def landed (s : Station M) (g : Nat) : Nat :=
  s.attempts.count ⟨g, some none⟩ + s.queue.control.items.count (.connected g)

/-- The transports of a generation, wherever they are. -/
def made (s : Station M) (g : Nat) : Nat := s.queue.loop.transports s.past g + s.landed g

/-- An attempt of a generation produces a transport in a run. -/
def Produced (s : Station M) (as : List (Action M)) (g : Nat) : Prop :=
  ∃ before, before <+: as ∧ ⟨g, some none⟩ ∈ (s.run before).attempts

/-- For certain generations there is a transport, and one only. -/
structure Books (p : Nat → Prop) (s : Station M) : Prop where
  one : ∀ g, p g → s.made g = 1
  zero : ∀ g, ¬ p g → s.made g = 0
  begun : ∀ g, p g → g ∈ s.past.filterMap Output.attempt?
  fresh : ∀ g, ⟨g, none⟩ ∈ s.attempts → ¬ p g

section Books

variable {p : Nat → Prop}

omit [Message M] in
/-- A transport that an attempt has is one of those that there are. -/
theorem Books.of_attempt (h : s.Books p) {g : Nat} (hg : ⟨g, some none⟩ ∈ s.attempts) :
    p g := by
  by_contra hp
  have hpos : 0 < s.attempts.count ⟨g, some none⟩ := List.count_pos_iff.mpr hg
  have hz := h.zero g hp
  simp only [made, landed] at hz
  omega

omit [Message M] in
/-- What makes no transport, and has no attempt begin but one of a new generation. -/
theorem Books.same (h : s.Books p) (hm : ∀ g, s'.made g = s.made g)
    (hb : s.past.filterMap Output.attempt? ⊆ s'.past.filterMap Output.attempt?)
    (hf : ∀ g, ⟨g, none⟩ ∈ s'.attempts →
      ⟨g, none⟩ ∈ s.attempts ∨ g ∉ s.past.filterMap Output.attempt?) :
    s'.Books fun g => p g ∨ ⟨g, some none⟩ ∈ s'.attempts := by
  have hsame : s'.Books p := by
    refine ⟨fun g hg => (hm g).trans (h.one g hg), fun g hg => (hm g).trans (h.zero g hg),
      fun g hg => hb (h.begun g hg), fun g hg hp => ?_⟩
    rcases hf g hg with hold | hnew
    · exact h.fresh g hold hp
    · exact hnew (h.begun g hp)
  have hiff (g : Nat) : (p g ∨ ⟨g, some none⟩ ∈ s'.attempts) ↔ p g :=
    or_iff_left_of_imp hsame.of_attempt
  simpa only [hiff] using hsame

/-- A turn that is not the last one makes no transport. -/
theorem Proceeds.made {heard : Option Nat} (h : s.Proceeds heard s')
    (hconn : s.queue.loop.state = .connecting → s.queue.loop.conn = none) (g : Nat) :
    s'.made g = s.made g := by
  obtain ⟨l, l', hc, hpub, hl, hp⟩ := h.course
  obtain ⟨item, hitems, hheard⟩ := h.items
  obtain ⟨begun, hattempts⟩ := h.attempts
  have hloop : s'.queue.loop.transports s'.past g =
      s.queue.loop.transports s.past g + if heard = some g then 1 else 0 := by
    rw [hl, hp, ← hc.transports hconn]
    rcases hpub with rfl | rfl
    · rfl
    · exact l.transports_publish
  have hitem : item.toList.count (.connected g) = if heard = some g then 1 else 0 := by
    by_cases hg : heard = some g
    · rw [(hheard g).mpr hg, if_pos hg]
      simp
    · rw [if_neg hg]
      exact List.count_eq_zero.mpr fun hm => hg ((hheard g).mp (Option.mem_toList.mp hm))
  have hbegun : (begun.map fun b => (⟨b, none⟩ : Attempt)).count ⟨g, some none⟩ = 0 :=
    List.count_eq_zero.mpr (by simp)
  simp only [Station.made, landed]
  rw [hloop, hitems, hattempts, List.count_append, List.count_append, hitem, hbegun]
  omega

omit [Message M] in
/-- What is no turn closes no transport, and begins no attempt. -/
theorem Idles.past_eq (h : s.Idles s') (g : Nat) :
    s'.past.countP (Output.closes g) = s.past.countP (Output.closes g) ∧
      s'.past.filterMap Output.attempt? = s.past.filterMap Output.attempt? := by
  obtain ⟨es, hp, hes⟩ := h.past
  have hnone : es.countP (Output.closes g) = 0 ∧ es.filterMap Output.attempt? = [] := by
    refine ⟨List.countP_eq_zero.mpr fun e he => ?_, List.filterMap_eq_nil_iff.mpr fun e he => ?_⟩
    all_goals obtain ⟨m, err, rfl⟩ := hes e he
    · simp [Output.closes]
    · rfl
  rw [hp, List.countP_append, List.filterMap_append, hnone.1, hnone.2, Nat.zero_add,
    List.nil_append]
  exact ⟨rfl, rfl⟩

omit [Message M] in
/-- What is no turn, and makes no transport. -/
theorem Books.idle (h : s.Books p) (hi : s.Idles s') (hlanded : ∀ g, s'.landed g = s.landed g)
    (hf : ∀ g, ⟨g, none⟩ ∈ s'.attempts → ⟨g, none⟩ ∈ s.attempts) :
    s'.Books fun g => p g ∨ ⟨g, some none⟩ ∈ s'.attempts := by
  obtain ⟨wire, hl⟩ := hi.loop
  refine h.same (fun g => ?_) ?_ fun g hg => .inl (hf g hg)
  · simp only [made, Loop.transports, hl, List.countP_append, (hi.past_eq g).1, hlanded]
  · rw [(hi.past_eq 0).2]
    exact List.Subset.refl _

omit [Message M] in
/-- What leaves the attempts and the control channel alone. -/
theorem Books.aside (h : s.Books p) (hi : s.Idles s') (ha : s'.attempts = s.attempts)
    (hc : s'.queue.control.items = s.queue.control.items) :
    s'.Books fun g => p g ∨ ⟨g, some none⟩ ∈ s'.attempts :=
  h.idle hi (fun g => by rw [landed, landed, ha, hc]) fun g hg => ha ▸ hg

omit [Message M] in
/-- An item that announces nothing is posted. -/
theorem Books.post (h : s.Books p) (job : JobId) {item : Control}
    (hi : ∀ g, item ≠ .connected g) :
    (s.post job item).Books fun g => p g ∨ ⟨g, some none⟩ ∈ (s.post job item).attempts := by
  refine h.idle ⟨rfl, ⟨_, rfl⟩, [], rfl, by simp⟩ (fun g => ?_) fun g hg => hg
  change _ + (s.queue.control.offer job item).2.items.count _ = _
  rw [s.queue.control.offer_items job item]
  split
  · have hnone : [item].count (.connected g) = 0 :=
      List.count_eq_zero.mpr (by simpa using (hi g).symm)
    rw [List.count_append, hnone, Nat.add_zero]
    rfl
  · rfl

/-- No two attempts run at once. -/
theorem Tended.attempts_cases (h : s.Tended) : s.attempts = [] ∨ ∃ a, s.attempts = [a] := by
  cases ha : s.attempts with
  | nil => exact .inl rfl
  | cons a rest =>
    have hone := (h.only_attempt (a := a) (by rw [ha]; exact List.mem_cons_self)).1
    exact .inr ⟨a, ha ▸ hone⟩

omit [Message M] in
/-- What changes nothing but the attempts. -/
theorem made_add_count (s' : Station M) (hq : s'.queue = s.queue) (hp : s'.past = s.past)
    (g : Nat) : s'.made g + s.attempts.count ⟨g, some none⟩ =
      s.made g + s'.attempts.count ⟨g, some none⟩ := by
  simp only [made, landed, hq, hp]
  omega

/-- An attempt turns out; if it succeeds, its transport is the first one of its generation. -/
theorem Books.decide (h : s.Books p) (ht : s.Tended) (generation : Nat) (refusal : Option String) :
    (s.act (.decide generation refusal)).Books fun g =>
      p g ∨ ⟨g, some none⟩ ∈ (s.act (.decide generation refusal)).attempts := by
  have hsame (ha : (s.act (.decide generation refusal)).attempts = s.attempts) :=
    h.aside (s.act_idles (a := .decide generation refusal) nofun) ha rfl
  rcases ht.attempts_cases with ha | ⟨⟨g₀, verdict⟩, ha⟩
  · exact hsame (by simp [Station.act, ha])
  by_cases hg : g₀ = generation
  case neg => exact hsame (by simp [Station.act, ha, hg])
  subst hg
  cases verdict with
  | some verdict => exact hsame (by simp [Station.act, ha, Attempt.decide])
  | none =>
    have hafter : (s.act (.decide g₀ refusal)).attempts = [⟨g₀, some refusal⟩] := by
      simp [Station.act, ha, Attempt.decide]
    have hmade (g : Nat) : (s.act (.decide g₀ refusal)).made g =
        s.made g + [(⟨g₀, some refusal⟩ : Attempt)].count ⟨g, some none⟩ := by
      have hadd := made_add_count (s := s) (s.act (.decide g₀ refusal)) rfl rfl g
      have hnone : s.attempts.count ⟨g, some none⟩ = 0 := by simp [ha]
      rwa [hafter, hnone] at hadd
    have hfresh : ¬ p g₀ := h.fresh g₀ (by simp [ha])
    cases refusal with
    | some reason =>
      refine h.same (fun g => by rw [hmade]; simp) (List.Subset.refl _) fun g hg => ?_
      rw [hafter] at hg
      simp at hg
    | none =>
      have hcount (g : Nat) : [(⟨g₀, some none⟩ : Attempt)].count ⟨g, some none⟩ =
          if g₀ = g then 1 else 0 := by simp [List.count_singleton]
      refine ⟨fun g hp => ?_, fun g hp => ?_, fun g hp => ?_, fun g hg => ?_⟩
      · rw [hmade, hcount]
        rcases hp with hp | hp
        · have hne : g₀ ≠ g := fun he => hfresh (by rw [he]; exact hp)
          rw [h.one g hp, if_neg hne]
        · obtain rfl : g = g₀ := by simpa [hafter] using hp
          rw [h.zero g hfresh, if_pos rfl]
      · have hne : g₀ ≠ g := fun he => hp (.inr (by rw [hafter, he]; exact List.mem_singleton_self _))
        rw [hmade, hcount, h.zero g fun hg => hp (.inl hg), if_neg hne]
      · rcases hp with hp | hp
        · exact h.begun g hp
        · obtain rfl : g = g₀ := by simpa [hafter] using hp
          exact ht.told.subset (by simp [ha])
      · rw [hafter] at hg
        simp at hg

/-- An attempt that turned out tells the queue, or has to wait or to turn out first. -/
theorem Tended.report_cases (h : s.Tended) (job : JobId) (generation : Nat) :
    (s.report job generation).attempts = s.attempts ∧
        (s.report job generation).queue.control.items = s.queue.control.items ∨
      ∃ refusal, s.attempts = [⟨generation, some refusal⟩] ∧
        (s.report job generation).attempts = [] ∧ (s.report job generation).queue.control.items =
          s.queue.control.items ++ [.outcome generation refusal] := by
  unfold Station.report
  split
  · next generation' refusal hfind =>
    obtain rfl : generation' = generation := by simpa using List.find?_some hfind
    have ha := (h.only_attempt (List.mem_of_find?_eq_some hfind)).1
    have hclosed := s.queue.control.offer_eq_closed job (.outcome generation' refusal)
    have hi : (s.post job (.outcome generation' refusal)).queue.control.items =
        if (s.queue.post job (.outcome generation' refusal)).1 = .put then
          s.queue.control.items ++ [.outcome generation' refusal] else s.queue.control.items :=
      s.queue.control.offer_items job (.outcome generation' refusal)
    cases hr : (s.queue.post job (.outcome generation' refusal)).1 with
    | closed => exact absurd ((hclosed.mp hr).symm.trans h.isOpen) nofun
    | full =>
      rw [hr, if_neg nofun] at hi
      exact .inl ⟨rfl, hi⟩
    | put =>
      rw [hr, if_pos rfl] at hi
      exact .inr ⟨refusal, ha, by simp [conclude, Station.post, ha], hi⟩
  · exact .inl ⟨rfl, rfl⟩

/-- A transport that was an attempt's is announced. -/
theorem Books.report (h : s.Books p) (ht : s.Tended) (job : JobId) (generation : Nat) :
    (s.report job generation).Books fun g =>
      p g ∨ ⟨g, some none⟩ ∈ (s.report job generation).attempts := by
  have hidle := s.report_idles job generation
  rcases ht.report_cases job generation with ⟨ha, hi⟩ | ⟨refusal, ha, hgone, hi⟩
  · exact h.aside hidle ha hi
  · refine h.idle hidle (fun g => ?_) fun g hg => ?_
    · rw [landed, landed, hgone, hi, ha, List.count_append, Nat.add_comm (List.count _ [_])]
      cases refusal <;> simp [Control.outcome, List.count_singleton]
    · rw [hgone] at hg
      exact absurd hg List.not_mem_nil

/-- An attempt that begins is the first one of its generation. -/
theorem Tended.begun_fresh (h' : s'.Tended) (htold : s'.told = s.told) (h : s.Tended)
    {begun : List Nat} (ha : s'.attempts = s.attempts ++ begun.map (⟨·, none⟩)) {g : Nat}
    (hg : g ∈ begun) : g ∉ s.past.filterMap Output.attempt? := by
  have hnodup : (s'.past.filterMap Output.attempt?).Nodup := by
    have hbegun := h'.linked.begun
    rw [h'.log, List.nil_append] at hbegun
    rw [hbegun]
    exact (List.reverse_perm _).nodup_iff.mpr List.nodup_range'
  have hperm := h'.told.nodup_iff.mpr hnodup
  rw [htold, ha, List.map_append, ← List.append_assoc, List.nodup_append] at hperm
  intro hold
  exact hperm.2.2 g (h.told.symm.subset hold) g (by simpa using hg) rfl

/-- The loop has its turn. -/
theorem Books.turn (h : s.Books p) (ht : s.Tended)
    (hconn : s.queue.loop.state = .connecting → s.queue.loop.conn = none)
    (hst : s.turn.stage ≠ .stopped) :
    s.turn.Books fun g => p g ∨ ⟨g, some none⟩ ∈ s.turn.attempts := by
  rcases ht.proceeds hst with heq | ⟨heard, hp⟩
  · rw [heq]
    exact h.same (fun _ => rfl) (List.Subset.refl _) fun g hg => .inl hg
  · refine h.same (hp.made hconn) ?_ fun g hg => ?_
    · obtain ⟨l, l', -, -, -, hpast⟩ := hp.course
      rw [hpast, List.filterMap_append]
      exact List.subset_append_right ..
    · obtain ⟨begun, ha⟩ := hp.attempts
      rw [ha] at hg
      refine (List.mem_append.mp hg).imp_right fun hg => ?_
      have hg : g ∈ begun := by simpa using hg
      exact (ht.turn.resolve_left hst).begun_fresh hp.told ht ha hg

/-- Whatever is done, there is one transport of each generation of which one was produced. -/
theorem Books.act (h : s.Books p) (ht : s.Tended)
    (hconn : s.queue.loop.state = .connecting → s.queue.loop.conn = none) (a : Action M)
    (hst : (s.act a).stage ≠ .stopped) :
    (s.act a).Books fun g => p g ∨ ⟨g, some none⟩ ∈ (s.act a).attempts := by
  cases a with
  | pass nanos => exact h.aside (s.act_idles nofun) rfl rfl
  | send job m =>
    have ha := s.send_aside job m
    exact h.aside ha.idles ha.attempts (congrArg Channel.items ha.control)
  | trySend m =>
    have ha := s.trySend_aside m
    exact h.aside ha.idles ha.attempts (congrArg Channel.items ha.control)
  | reopen job => exact h.post job nofun
  | close job => exact h.post job nofun
  | release => exact h.aside (s.act_idles nofun) rfl rfl
  | deliver job generation data =>
    dsimp only [Station.act]
    split
    · exact h.post job nofun
    · exact h.aside (.refl s) rfl rfl
  | lost job generation reason =>
    dsimp only [Station.act]
    split
    · exact h.post job nofun
    · exact h.aside (.refl s) rfl rfl
  | decide generation refusal => exact h.decide ht generation refusal
  | report job generation => exact h.report ht job generation
  | wire errors => exact h.aside (s.act_idles nofun) rfl rfl
  | turn => exact h.turn ht hconn hst

end Books

/-! ### Runs that stop -/

/-- Where the loop goes on, there is one transport of each generation of which one was produced. -/
theorem run_books (name : Name) (config : Config) (hook : Hook) (as : List (Action M))
    (hst : ((start name config hook).run as).stage ≠ .stopped) :
    ((start name config hook).run as).Books (Produced (start name config hook) as) := by
  induction as using List.reverseRecOn with
  | nil =>
    have hnone (g : Nat) : ¬ Produced (start (M := M) name config hook) [] g := by
      rintro ⟨before, hb, hg⟩
      rw [List.prefix_nil.mp hb] at hg
      exact absurd hg List.not_mem_nil
    exact ⟨fun g hg => absurd hg (hnone g), fun _ _ => rfl, fun g hg => absurd hg (hnone g),
      fun g hg => absurd hg List.not_mem_nil⟩
  | append_singleton as a ih =>
    have hrun : (start name config hook).run (as ++ [a]) =
        ((start name config hook).run as).act a := List.foldl_append
    have hgoes : ((start name config hook).run as).stage ≠ .stopped := fun hs =>
      hst (by rw [hrun]; exact act_stopped hs a)
    have ht := (run_tended (.inr (Tended.start name config hook)) as).resolve_left hgoes
    have hc := (run_coherent name config hook as).1
    have hbooks := (ih hgoes).act ht (fun hs => hc.conn_none (by rw [hs]; nofun)) a (hrun ▸ hst)
    rw [← hrun] at hbooks
    have hiff : Produced (start name config hook) (as ++ [a]) = fun g =>
        Produced (start name config hook) as g ∨
          ⟨g, some none⟩ ∈ ((start name config hook).run (as ++ [a])).attempts := by
      funext g
      refine propext ⟨?_, ?_⟩
      · rintro ⟨before, hb, hg⟩
        rcases List.prefix_concat_iff.mp hb with rfl | hb
        · exact .inr hg
        · exact .inl ⟨before, hb, hg⟩
      · rintro (⟨before, hb, hg⟩ | hg)
        · exact ⟨before, hb.trans (List.prefix_append ..), hg⟩
        · exact ⟨_, List.prefix_refl _, hg⟩
    rw [hiff]
    exact hbooks

/-- The last turn of a run that stops. -/
theorem exists_last_turn {s : Station M} (hs : s.stage ≠ .stopped) {as : List (Action M)}
    (hst : (s.run as).stage = .stopped) : ∃ before after, as = before ++ .turn :: after ∧
      (s.run before).stage ≠ .stopped ∧ (s.run before).turn.stage = .stopped := by
  induction as generalizing s with
  | nil => exact absurd hst hs
  | cons a as ih =>
    by_cases ha : (s.act a).stage = .stopped
    · by_cases hturn : a = .turn
      · subst hturn
        exact ⟨[], as, rfl, hs, ha⟩
      · exact absurd ((s.act_idles hturn).stage.symm.trans ha) hs
    · obtain ⟨before, after, rfl, hgoes, hstops⟩ := ih ha hst
      exact ⟨a :: before, after, rfl, hgoes, hstops⟩

/-- Nothing happens to a transport after the loop has stopped. -/
theorem Halted.run (h : s.Halted) (as : List (Action M)) : (s.run as).Halted ∧
    ∀ g, (s.run as).past.countP (Output.closes g) = s.past.countP (Output.closes g) := by
  induction as generalizing s with
  | nil => exact ⟨h, fun _ => rfl⟩
  | cons a as ih =>
    obtain ⟨hh, hp⟩ := ih (h.act a)
    have hidle : s.Idles (s.act a) := by
      by_cases ha : a = .turn
      · subst ha
        rw [Station.act, Station.turn, h.stage]
        exact .refl s
      · exact s.act_idles ha
    exact ⟨hh, fun g => (hp g).trans (hidle.past_eq g).1⟩

/-- Nothing is produced after the loop has stopped. -/
theorem produced_of_halted {s : Station M} {before after : List (Action M)} {g : Nat}
    (hh : (s.run before).turn.Halted) (hp : s.Produced (before ++ .turn :: after) g) :
    s.Produced before g := by
  obtain ⟨earlier, he, hg⟩ := hp
  have hrun (rest : List (Action M)) : s.run (before ++ .turn :: rest) =
      (s.run before).turn.run rest := List.foldl_append
  rw [List.append_cons] at he
  rcases List.prefix_or_prefix_of_prefix he (List.prefix_append _ after) with hle | ⟨rest, rfl⟩
  · rcases List.prefix_concat_iff.mp hle with rfl | hle
    · rw [hrun, (hh.run []).1.attempts] at hg
      exact absurd hg List.not_mem_nil
    · exact ⟨earlier, hle, hg⟩
  · rw [← List.append_cons, hrun, (hh.run rest).1.attempts] at hg
    exact absurd hg List.not_mem_nil

/-- What becomes of the transports in a run whose last turn of the loop stands between two parts. -/
structure Clears (s : Station M) (before after : List (Action M)) : Prop where
  goesOn : (s.run before).stage ≠ .stopped
  stops : (s.run before).turn.stage = .stopped
  /-- A transport that was produced is closed once, unless the loop had not taken notice of it. -/
  closed : ∀ g, s.Produced (before ++ .turn :: after) g →
    (s.run (before ++ .turn :: after)).past.countP (Output.closes g) = 1 ∧
        (s.run before).landed g = 0 ∨
      (s.run (before ++ .turn :: after)).past.countP (Output.closes g) = 0 ∧
        (s.run before).landed g = 1
  /-- No other transport is closed. -/
  others : ∀ g, ¬ s.Produced (before ++ .turn :: after) g →
    (s.run (before ++ .turn :: after)).past.countP (Output.closes g) = 0

/-- Whenever the loop of a queue has stopped, each transport that an attempt produced was closed
once if the loop had taken notice of it before its last turn; one that was still its attempt's then,
or announced, was not closed at all. -/
theorem closed_or_stranded (name : Name) (config : Config) (hook : Hook) {as : List (Action M)}
    (hst : ((start name config hook).run as).stage = .stopped) :
    ∃ before after, as = before ++ .turn :: after ∧
      (start name config hook).Clears before after := by
  obtain ⟨before, after, rfl, hgoes, hstops⟩ := exists_last_turn (by nofun) hst
  have hrun (rest : List (Action M)) : (start name config hook).run (before ++ .turn :: rest) =
      ((start name config hook).run before).turn.run rest := List.foldl_append
  have hbooks := run_books name config hook before hgoes
  have hsound : ((start name config hook).run before).Sound := (Sound.start name config hook).run _
  have ht := (run_tended (.inr (Tended.start name config hook)) before).resolve_left hgoes
  have hhalted := ht.halts hgoes hstops
  have hconn : ((start name config hook).run before).turn.queue.loop.conn = none := by
    have hc := (link_coherent name config hook (before ++ [.turn])).stopped
    rw [hrun] at hc
    exact (hc hstops).2.1
  have hproduced (g : Nat) : Produced (start name config hook) (before ++ .turn :: after) g ↔
      Produced (start name config hook) before g :=
    ⟨produced_of_halted hhalted, fun ⟨earlier, he, hg⟩ =>
      ⟨earlier, he.trans (List.prefix_append ..), hg⟩⟩
  have hone := hbooks.one
  have hzero := hbooks.zero
  have hclosings (g : Nat) : ((start name config hook).run before).turn.past.countP
      (Output.closes g) = ((start name config hook).run before).queue.loop.transports
        ((start name config hook).run before).past g := by
    generalize (start name config hook).run before = s at *
    rcases turn_cases hsound (.inr ht) with heq | ⟨taken, l, hturn, hl, hp, -⟩
    · exact absurd (heq ▸ hstops) hgoes
    · rw [hstops] at hturn
      rw [hl] at hconn
      rw [← hturn.transports_of_stopped, Loop.transports, hp, if_neg (by rw [hconn]; nofun)]
      rfl
  simp only [made, ← hclosings] at hone hzero
  refine ⟨before, after, rfl, hgoes, hstops, fun g hp => ?_, fun g hp => ?_⟩
  · rw [hrun, (hhalted.run after).2]
    have := hone g ((hproduced g).mp hp)
    omega
  · rw [hrun, (hhalted.run after).2]
    have := hzero g fun h => hp ((hproduced g).mpr h)
    omega

/-- A transport that the loop closes when it stops. -/
theorem closed_or_stranded_open :
    let as : List (Action Plain) :=
      [.turn, .decide 1 none, .report ⟨0⟩ 1, .turn, .turn, .turn, .close ⟨0⟩, .turn]
    ((start default .standard .ignored).run as).stage = .stopped ∧
      ∃ before after, as = before ++ .turn :: after ∧
        (start default .standard .ignored).Clears before after :=
  ⟨by decide, closed_or_stranded _ _ _ (by decide)⟩

/-- A transport that is announced behind the item that makes the loop stop is never closed. -/
theorem stranded_announced :
    let s := start (M := Plain) default .standard .ignored
    let as : List (Action Plain) := [.turn, .decide 1 none, .close ⟨0⟩, .report ⟨1⟩ 1, .turn]
    (s.run as).stage = .stopped ∧ s.Produced as 1 ∧ .closed 1 ∉ (s.run as).past :=
  ⟨by decide, ⟨[.turn, .decide 1 none], ⟨[.close ⟨0⟩, .report ⟨1⟩ 1, .turn], rfl⟩, by decide⟩,
    by decide⟩

end Station

end Hearth.Link

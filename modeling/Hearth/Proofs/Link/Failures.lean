import Hearth.Proofs.Link.Course

/-!
# How failures are counted

The number of failures that a queue publishes is that of its attempts to connect that failed since
the link was last open or given up, and one more if that link was lost: a link that breaks is counted
as an attempt that failed, and takes one off the retries. So a loop gives up one attempt earlier
after its link was lost than it does at first, and if no retries are allowed a link that is lost is
given up at once.

## Main definitions

* `Setbacks`, `Station.setbacks` : what went wrong with a link, read off the steps of a run.
* `Backoff.Counted` : a number of failures was recorded.

## Main results

* `Loop.Counts.course` : every step of the link keeps the count.
* `Station.setbacks_counted` : what is published in a run, and when the loop gives up.
-/

namespace Hearth.Link

variable {M : Type}

/-! ### The record of failures -/

namespace Backoff

/-- A number of failures was recorded, up to the largest that can be, and none of them was one too
many. -/
structure Counted (settings : BackoffConfig) (n : Nat) (b : Backoff) : Prop where
  config : b.config = settings
  failures : b.failures.toNat = min n 0xffffffff
  allowed : ∀ most, settings.maxRetries = some most → n ≤ most.toNat

variable {settings : BackoffConfig} {n : Nat} {b : Backoff}

theorem Counted.start (settings : BackoffConfig) : Counted settings 0 (.start settings) :=
  ⟨rfl, rfl, fun _ _ => Nat.zero_le _⟩

theorem Counted.reset (h : b.Counted settings n) : b.reset.Counted settings 0 :=
  ⟨h.config, rfl, fun _ _ => Nat.zero_le _⟩

/-- A failure that is not one too many is recorded. -/
theorem Counted.fail (h : b.Counted settings n) (hf : b.isExhausted = false) :
    b.fail.2.Counted settings (n + 1) := by
  rcases b.fail_cases with ⟨hex, -⟩ | ⟨-, delay, -, heq⟩
  · exact absurd (hex.symm.trans hf) nofun
  rw [heq]
  have hn := h.failures
  have hle := b.failures.toNat_lt
  refine ⟨h.config, ?_, fun most hm => ?_⟩
  · dsimp only
    split
    · next htop =>
      rw [show b.failures = 0xffffffff by simpa using htop] at hn ⊢
      simp only [UInt32.reduceToNat] at hn ⊢
      omega
    · next htop =>
      have hne : b.failures.toNat ≠ 0xffffffff := fun he =>
        htop (beq_iff_eq.mpr (UInt32.toNat_inj.mp he))
      rw [UInt32.toNat_add]
      simp only [UInt32.reduceToNat]
      omega
  · have hlt : ¬ most ≤ b.failures := by
      simpa [isExhausted, h.config, hm] using hf
    rw [UInt32.not_le, UInt32.lt_iff_toNat_lt] at hlt
    have hmost := most.toNat_lt
    omega

/-- The attempts have ended when as many failures were recorded as there are retries. -/
theorem Counted.exhausted (h : b.Counted settings n) (hex : b.isExhausted = true) :
    ∃ most, settings.maxRetries = some most ∧ n = most.toNat ∧ b.failures.toNat = most.toNat := by
  rw [isExhausted, h.config] at hex
  split at hex
  · next most hm =>
    have hle := UInt32.le_iff_toNat_le.mp (of_decide_eq_true hex)
    have hn := h.failures
    have ha := h.allowed most hm
    exact ⟨most, hm, by omega, by omega⟩
  · exact absurd hex nofun

end Backoff

/-- What went wrong with a link since it was last open or given up. -/
structure Setbacks where
  /-- Attempts to connect that failed. -/
  refused : Nat
  /-- Open links that broke. -/
  lost : Nat
  deriving Repr, DecidableEq

namespace Setbacks

/-- Nothing went wrong. -/
def none : Setbacks := ⟨0, 0⟩

/-- Everything that went wrong. -/
def total (t : Setbacks) : Nat := t.refused + t.lost

/-- The setbacks after the link moved: while it is connecting an attempt is under way, and a link
that waits was neither opened nor given up. -/
def next (t : Setbacks) : State → State → Setbacks
  | .connecting, .waiting => { t with refused := t.refused + 1 }
  | .connected, .waiting => { t with lost := t.lost + 1 }
  | _, .connected => none
  | _, .closed => none
  | _, _ => t

theorem next_connected (t : Setbacks) (before : State) : t.next before .connected = none := by
  cases before <;> rfl

theorem next_closed (t : Setbacks) (before : State) : t.next before .closed = none := by
  cases before <;> rfl

theorem next_connecting (t : Setbacks) (before : State) : t.next before .connecting = t := by
  cases before <;> rfl

/-- Where nothing moves nothing goes wrong. -/
theorem next_self {t : Setbacks} {state : State}
    (h : state = .connected ∨ state = .closed → t = none) : t.next state state = t := by
  cases state
  case connected => exact (h (.inl rfl)).symm
  case closed => exact (h (.inr rfl)).symm
  all_goals rfl

end Setbacks

namespace Loop

/-! ### What a step of the link adds to the count -/

/-- The failures of a loop are its setbacks, and there are none while its link is open or not
wanted. -/
structure Counts (config : Config) (t : Setbacks) (l : Loop M) : Prop where
  counted : l.backoff.Counted config.backoff t.total
  lost : t.lost ≤ 1
  clear : l.state = .connected ∨ l.state = .closed → t = .none

variable {config : Config} {t : Setbacks} {l l' : Loop M}

theorem Counts.of_eq (h : l.Counts config t) (hs : l'.state = l.state)
    (hb : l'.backoff = l.backoff) : l'.Counts config t :=
  ⟨hb ▸ h.counted, h.lost, hs ▸ h.clear⟩

/-- While the link was open nothing went wrong, and nothing has when its transport is closed. -/
theorem Counts.disconnected (h : l.Counts config t) (hs : l.state = .connected) (state : State)
    (reason : String) : (l.disconnected state reason).Counts config t :=
  ⟨h.counted, h.lost, fun _ => h.clear (.inl hs)⟩

/-- The failure that puts an attempt off is counted; if it is one too many all are forgotten. -/
theorem Counts.scheduleRetry (h : l.Counts config t) {before : State} (now : Nat) (reason : String)
    (hw : l.state.canGo .waiting = true) (hc : l.state.canGo .closed = true)
    (hnext : (t.next before .waiting).total = t.total + 1)
    (hlost : (t.next before .waiting).lost ≤ 1) :
    (l.scheduleRetry now reason).Counts config
      (t.next before (l.scheduleRetry now reason).state) := by
  rcases scheduleRetry_outcome now l reason hw hc with ⟨hex, due, heq⟩ | ⟨-, heq⟩
  · rw [heq]
    refine ⟨?_, hlost, by simp⟩
    rw [hnext]
    exact h.counted.fail hex
  · rw [heq]
    rw [Setbacks.next_closed]
    exact ⟨h.counted.reset, Nat.zero_le _, fun _ => rfl⟩

/-- An attempt begins. -/
theorem Counts.startConnect (h : l.Counts config t) (hs : l.state.canGo .connecting = true)
    (before : State) : l.startConnect.Counts config (t.next before l.startConnect.state) := by
  rw [Linked.startConnect_eq hs, Setbacks.next_connecting]
  exact ⟨h.counted, h.lost, by simp⟩

/-- A link that is closed is opened if that is wanted. -/
theorem Counts.maybeConnect (h : l.Counts config t) (hs : l.state = .closed) (before : State) :
    l.maybeConnect.Counts config (t.next before l.maybeConnect.state) := by
  rcases l.maybeConnect_cases with heq | ⟨-, -, heq⟩
  · obtain rfl : t = .none := h.clear (.inr hs)
    rw [heq, hs, Setbacks.next_closed]
    exact h
  · rw [heq]
    exact h.startConnect (by rw [hs]; rfl) before

variable [Message M]

theorem Counts.trades (h : l.Counts config t) (ht : l.Trades l') : l'.Counts config t :=
  h.of_eq ht.state ht.backoff

/-- Every step of the link keeps the count. -/
theorem Counts.course {now : Nat} {heard : Option Nat} (h : l.Counts config t)
    (hc : l.Course now heard l') : l'.Counts config (t.next l.state l'.state) := by
  cases hc with
  | @opens l₁ _ before connecting after =>
    have h₁ := h.trades before
    have hst : l'.state = .connected := by rw [after.state, opened_eq connecting]
    have hb : l'.backoff = l₁.backoff.reset := by rw [after.backoff, opened_eq connecting]
    rw [hst, Setbacks.next_connected]
    exact ⟨hb ▸ h₁.counted.reset, Nat.zero_le _, fun _ => rfl⟩
  | rests before =>
    rw [before.state, Setbacks.next_self h.clear]
    exact h.trades before
  | begins before closed wanted =>
    exact (h.trades before).startConnect (by rw [closed]; rfl) l.state
  | @resumes l₁ _ before waiting due after =>
    have h₁ : Counts config t { l₁ with retryAt := none } := (h.trades before).of_eq rfl rfl
    have hgo : State.canGo l₁.state .connecting = true := by rw [waiting]; rfl
    have hst := h₁.startConnect hgo l.state
    rw [← after.state] at hst
    exact hst.trades after
  | @fails l₁ before connecting reason =>
    have h₁ : Counts config t ({ l₁ with connecting := none }.emit (.error reason)) :=
      (h.trades before).of_eq rfl rfl
    have hst : l.state = .connecting := before.state.symm.trans connecting
    refine h₁.scheduleRetry now reason ?_ ?_ ?_ ?_
    · change l₁.state.canGo .waiting = true
      rw [connecting]
      rfl
    · change l₁.state.canGo .closed = true
      rw [connecting]
      rfl
    · rw [hst]
      simp only [Setbacks.next, Setbacks.total]
      omega
    · rw [hst]
      exact h.lost
  | @breaks l₁ before connected reason =>
    have h₁ := h.trades before
    obtain rfl : t = .none := h₁.clear (.inl connected)
    have hst : l.state = .connected := before.state.symm.trans connected
    rw [linkLost_eq connected]
    refine (h₁.disconnected connected .closing reason).scheduleRetry now reason rfl rfl ?_ ?_
    · rw [hst]
      rfl
    · rw [hst]
      exact Nat.le_refl 1
  | recycles before connected reason =>
    rw [recycle_eq connected]
    exact ((h.trades before).disconnected connected .closed reason).maybeConnect rfl l.state

/-! ### Giving up -/

/-- `l'` comes from `l`, and fails messages because the link cannot be opened only with a number of
attempts for which `p` holds, unless a message answers so itself. -/
def GivesUp (p : Nat → Prop) (l l' : Loop M) : Prop :=
  ∃ es, l'.log = es ++ l.log ∧ ∀ m n reason, .failed m (.connectFailed n reason) ∈ es →
    Answered M (.connectFailed n reason) ∨ p n

namespace GivesUp

variable {p : Nat → Prop} {l₁ l₂ l₃ : Loop M}

theorem trans (h₁ : l₁.GivesUp p l₂) (h₂ : l₂.GivesUp p l₃) : l₁.GivesUp p l₃ := by
  obtain ⟨es₁, he₁, hn₁⟩ := h₁
  obtain ⟨es₂, he₂, hn₂⟩ := h₂
  refine ⟨es₂ ++ es₁, by rw [he₂, he₁, List.append_assoc], fun m n reason hm => ?_⟩
  rcases List.mem_append.mp hm with hm | hm
  · exact hn₂ m n reason hm
  · exact hn₁ m n reason hm

theorem trades (h : l.Trades l') : l.GivesUp p l' := by
  obtain ⟨es, hl, hes⟩ := h.log
  exact ⟨es, hl, fun m n reason hm => .inl (hes _ hm)⟩

theorem startConnect (hs : l.state.canGo .connecting = true) : l.GivesUp p l.startConnect := by
  rw [Linked.startConnect_eq hs]
  exact ⟨[.attempt _], rfl, by simp⟩

theorem maybeConnect (hs : l.state = .closed) : l.GivesUp p l.maybeConnect := by
  rcases l.maybeConnect_cases with heq | ⟨-, -, heq⟩
  · rw [heq]
    exact ⟨[], rfl, by simp⟩
  · rw [heq]
    exact startConnect (by rw [hs]; rfl)

theorem disconnected (l : Loop M) (state : State) (reason : String) :
    l.GivesUp p (l.disconnected state reason) := by
  refine ⟨.notice (.disconnect reason) :: l.conn.toList.map .closed, rfl, fun m n why hm => ?_⟩
  simp at hm

/-- Messages are failed when as many failures were counted as there are retries. -/
theorem scheduleRetry (h : l.Counts config t) (now : Nat) (reason : String)
    (hw : l.state.canGo .waiting = true) (hc : l.state.canGo .closed = true)
    (hp : ∀ most, config.backoff.maxRetries = some most → t.total = most.toNat →
      p (t.total + 1)) : l.GivesUp p (l.scheduleRetry now reason) := by
  rcases scheduleRetry_outcome now l reason hw hc with ⟨-, due, heq⟩ | ⟨hex, heq⟩
  · rw [heq]
    exact ⟨[], rfl, by simp⟩
  · obtain ⟨most, hm, ht, hf⟩ := h.counted.exhausted hex
    rw [heq]
    refine ⟨_, rfl, fun m n why hmem => .inr ?_⟩
    obtain ⟨m', -, he⟩ := List.mem_map.mp (List.mem_reverse.mp hmem)
    obtain ⟨-, hn, -⟩ : m' = m ∧ l.backoff.failures.toNat + 1 = n ∧ reason = why := by simpa using he
    rw [← hn, hf, ← ht]
    exact hp most hm ht

end GivesUp

/-- When a loop gives up in a step, as many setbacks went before as there are retries. -/
theorem Counts.givesUp {p : Nat → Prop} {now : Nat} {heard : Option Nat} (h : l.Counts config t)
    (hc : l.Course now heard l')
    (hp : ∀ most, config.backoff.maxRetries = some most → t.total = most.toNat →
      l.state = .connecting ∨ l.state = .connected → p (t.total + 1)) : l.GivesUp p l' := by
  cases hc with
  | opens before connecting after =>
    refine .trans (.trans (.trades before) ?_) (.trades after)
    rw [opened_eq connecting]
    exact ⟨[.notice .connect], rfl, by simp⟩
  | rests before => exact .trades before
  | begins before closed wanted =>
    exact .trans (.trades before) (.startConnect (by rw [closed]; rfl))
  | @resumes l₁ _ before waiting due after =>
    have hgo : State.canGo l₁.state .connecting = true := by rw [waiting]; rfl
    have hstart : l₁.GivesUp p ({ l₁ with retryAt := none }.startConnect) :=
      .startConnect (l := { l₁ with retryAt := none }) hgo
    exact .trans (.trans (.trades before) hstart) (.trades after)
  | @fails l₁ before connecting reason =>
    have hst : l.state = .connecting := before.state.symm.trans connecting
    have h₁ : Counts config t ({ l₁ with connecting := none }.emit (.error reason)) :=
      (h.trades before).of_eq rfl rfl
    have hput : l₁.GivesUp p ({ l₁ with connecting := none }.emit (.error reason)) :=
      ⟨[.notice (.error reason)], rfl, by simp⟩
    refine .trans (.trans (.trades before) hput) (.scheduleRetry h₁ now reason ?_ ?_ ?_)
    · change l₁.state.canGo .waiting = true
      rw [connecting]
      rfl
    · change l₁.state.canGo .closed = true
      rw [connecting]
      rfl
    · exact fun most hm ht => hp most hm ht (.inl hst)
  | breaks before connected reason =>
    have hst : l.state = .connected := before.state.symm.trans connected
    rw [linkLost_eq connected]
    refine .trans (.trans (.trades before) (.disconnected ..)) (.scheduleRetry
      ((h.trades before).disconnected connected ..) now reason rfl rfl fun most hm ht => ?_)
    exact hp most hm ht (.inr hst)
  | recycles before connected reason =>
    rw [recycle_eq connected]
    exact .trans (.trans (.trades before) (.disconnected ..)) (.maybeConnect rfl)

/-- The last turn of a loop counts nothing, and publishes what was counted. -/
theorem Turn.backoff_of_stopped {now : Nat} {stage : Stage} {taken : List M}
    (ht : Turn now stage l taken .stopped l') :
    l'.backoff = l.backoff ∧ l'.status.failures = l'.backoff.failures.toNat := by
  cases ht
  obtain ⟨l₁, ht, heq⟩ := l.shutdown_trades taken
  refine ⟨?_, rfl⟩
  change (l.shutdown taken).backoff = l.backoff
  rw [heq, hangUp_eq]
  exact ht.backoff

/-- The messages that a loop fails in a turn. -/
theorem Turn.givesUp {p : Nat → Prop} {now : Nat} {stage stage' : Stage} {taken : List M}
    (ht : Turn now stage l taken stage' l') (h : stage ≠ .stopped → l.Counts config t)
    (hp : ∀ most, config.backoff.maxRetries = some most → t.total = most.toNat →
      l.state = .connecting ∨ l.state = .connected → p (t.total + 1)) : l.GivesUp p l' := by
  have hpublish (l : Loop M) : l.GivesUp p l.publish := ⟨[.published l.snapshot], rfl, by simp⟩
  by_cases hs : stage' = .stopped
  · subst hs
    cases ht
    -- the messages are failed because the queue is closed
    obtain ⟨l₁, ht, heq⟩ := l.shutdown_trades taken
    have hdown : l₁.GivesUp p l₁.hangUp := by
      rw [hangUp_eq]
      refine ⟨_, rfl, fun m n reason hm => ?_⟩
      split at hm <;> simp at hm
    rw [heq]
    exact (GivesUp.trans (.trades ht) hdown).trans (hpublish _)
  · obtain ⟨heard, l₁, hc, hpub, -⟩ := ht.course hs
    have hrun : stage ≠ .stopped := by
      rintro rfl
      cases ht
    have h₁ := (h hrun).givesUp hc hp
    rcases hpub with rfl | rfl
    · exact h₁
    · exact h₁.trans (hpublish l₁)

end Loop

/-! ### Runs -/

theorem Answered.of_numbered [Message M] {e : QueueError} (h : Answered (Numbered M) e) :
    Answered M e := by
  obtain ⟨m, hsend | ⟨data, hrecv⟩⟩ := h
  · exact ⟨m.body, .inl hsend⟩
  · exact ⟨m.body, .inr ⟨data, hrecv⟩⟩

namespace Station

variable [Message M] {s s' : Station M} {config : Config} {t : Setbacks}

/-- The setbacks after an action that leads to a station. A loop that stops closes its link, but
gives nothing up. -/
def setback (t : Setbacks) (s s' : Station M) : Setbacks :=
  if s'.stage = .stopped then t else t.next s.queue.loop.state s'.queue.loop.state

/-- The setbacks of a run, read off the states of the link before and after each action. -/
def setbacks (s : Station M) (t : Setbacks) : List (Action M) → Setbacks
  | [] => t
  | a :: as => (s.act a).setbacks (setback t s (s.act a)) as

/-- The setbacks of a station are counted, and published wherever its loop waits. -/
structure Tallied (config : Config) (t : Setbacks) (s : Station M) : Prop where
  counted : s.queue.loop.backoff.Counted config.backoff t.total
  lost : t.lost ≤ 1
  running : s.stage ≠ .stopped → s.queue.loop.Counts config t
  published : s.stage = .waiting ∨ s.stage = .stopped →
    s.queue.loop.status.failures = s.queue.loop.backoff.failures.toNat

omit [Message M] in
theorem Tallied.start (name : Name) (config : Config) (hook : Hook) :
    (Station.start (M := M) name config hook).Tallied config .none where
  counted := .start config.backoff
  lost := Nat.zero_le 1
  running _ := ⟨.start config.backoff, Nat.zero_le 1, fun _ => rfl⟩
  published h := absurd h (by simp [Station.start])

omit [Message M] in
/-- Where the loop has no turn nothing is counted. -/
theorem Tallied.idles (h : s.Tallied config t) (hi : s.Idles s') :
    s'.Tallied config (setback t s s') := by
  obtain ⟨wire, hl⟩ := hi.loop
  have ht : setback t s s' = t := by
    unfold setback
    split
    · rfl
    · next hs =>
      rw [hi.stage] at hs
      rw [hl]
      exact Setbacks.next_self (h.running hs).clear
  rw [ht]
  refine ⟨by rw [hl]; exact h.counted, h.lost, fun hs => ?_, fun hs => ?_⟩
  · rw [hl]
    rw [hi.stage] at hs
    exact (h.running hs).of_eq rfl rfl
  · rw [hl]
    rw [hi.stage] at hs
    exact h.published hs

/-- A turn of the loop counts what it has to. -/
theorem Tallied.turns (h : s.Tallied config t) (ht : s.Turns s') :
    s'.Tallied config (setback t s s') := by
  obtain ⟨taken, l, hturn, hl, -⟩ := ht
  have hrun : s.stage ≠ .stopped := by
    intro hst
    rw [hst] at hturn
    cases hturn
  unfold setback
  rw [hl]
  split
  · next hs =>
    rw [hs] at hturn
    obtain ⟨hb, hpub⟩ := hturn.backoff_of_stopped
    refine ⟨?_, h.lost, fun hns => absurd hs hns, fun _ => ?_⟩
    · rw [hl]
      exact hb ▸ h.counted
    · rw [hl]
      exact hpub
  · next hs =>
    obtain ⟨heard, l₁, hc, hpub, hwait⟩ := hturn.course hs
    have h₁ := (h.running hrun).course hc
    have h₂ : l.Counts config (t.next s.queue.loop.state l.state) := by
      rcases hpub with rfl | rfl
      · exact h₁
      · exact h₁.of_eq rfl rfl
    refine ⟨?_, h₂.lost, fun _ => ?_, ?_⟩
    · rw [hl]
      exact h₂.counted
    · rw [hl]
      exact h₂.of_eq rfl rfl
    · rintro (hst | hst)
      · rw [hl, hwait hst]
        rfl
      · exact absurd hst hs

/-- Nothing is counted twice, and nothing is forgotten. -/
theorem run_tallied (hs : s.Sound) (ht : s.stage = .stopped ∨ s.Tended) (h : s.Tallied config t)
    (as : List (Action M)) : (s.run as).Tallied config (s.setbacks t as) := by
  induction as generalizing s t with
  | nil => exact h
  | cons a as ih =>
    refine ih (hs.act a) (run_tended ht [a]) ?_
    rcases act_cases hs ht a with hi | hturn
    · exact h.idles hi
    · exact h.turns hturn

/-- Throughout every run, what a queue publishes as its failures are the attempts to connect that
failed since its link was last open or given up, and one more if that link was lost. Unless a
message answers so itself, messages are failed because the link could not be opened only after as
many setbacks as there are retries, by one more: an attempt that fails, or an open link that
breaks. -/
theorem setbacks_counted (name : Name) (config : Config) (hook : Hook) (as : List (Action M)) :
    let s := (start name config hook).run as
    let t := (start name config hook).setbacks .none as
    t.lost ≤ 1 ∧
      (s.stage = .waiting ∨ s.stage = .stopped →
        s.queue.loop.status.failures = min (t.refused + t.lost) 0xffffffff) ∧
      ∃ es, s.turn.past = es ++ s.past ∧ ∀ m n reason, .failed m (.connectFailed n reason) ∈ es →
        Answered M (.connectFailed n reason) ∨
          n = t.refused + t.lost + 1 ∧
            (∃ most, config.backoff.maxRetries = some most ∧ n = most.toNat + 1) ∧
            (s.queue.loop.state = .connecting ∨ s.queue.loop.state = .connected) := by
  have hs : ((start name config hook).run as).Sound := (Sound.start name config hook).run as
  have ht := run_tended (.inr (Tended.start name config hook)) as
  have h := run_tallied (Sound.start name config hook) (.inr (Tended.start name config hook))
    (Tallied.start (M := M) name config hook) as
  dsimp only
  generalize (start name config hook).run as = s at hs ht h
  generalize (start name config hook).setbacks .none as = t at h
  refine ⟨h.lost, fun hst => (h.published hst).trans h.counted.failures, ?_⟩
  rcases turn_cases hs ht with heq | ⟨taken, l, hturn, -, hp, -⟩
  · exact ⟨[], by rw [heq]; rfl, by simp⟩
  · obtain ⟨es, hes, hfail⟩ := hturn.givesUp (p := fun n => n = t.refused + t.lost + 1 ∧
      (∃ most, config.backoff.maxRetries = some most ∧ n = most.toNat + 1) ∧
      (s.queue.loop.state = .connecting ∨ s.queue.loop.state = .connected)) h.running
      fun most hm htotal hst => ⟨rfl, ⟨most, hm, by rw [htotal]⟩, hst⟩
    rw [hs.keeps.log, List.append_nil] at hes
    exact ⟨es, hes ▸ hp, fun m n reason hm => (hfail m n reason hm).imp_left .of_numbered⟩

/-- A link that breaks when no retries are allowed fails the message that waits because it could not
be opened, though no attempt has failed. -/
theorem given_up_unrefused :
    let s := (start (M := Plain) default { Config.standard with
      backoff := { BackoffConfig.standard with maxRetries := some 0 } } .ignored).run
        [.turn, .decide 1 none, .report ⟨0⟩ 1, .send ⟨1⟩ ⟨true⟩, .turn, .turn, .turn, .turn,
          .lost ⟨0⟩ 1 "cable pulled", .turn]
    .failed ⟨0, ⟨true⟩⟩ (.connectFailed 1 "cable pulled") ∈ s.past ∧
      s.past.any (fun o => o matches .notice (.error _)) = false :=
  ⟨by decide, by decide⟩

end Station

end Hearth.Link

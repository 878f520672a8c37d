import Hearth.Proofs.Link.Course
import Hearth.Proofs.Link.Steering

/-!
# What a link is opened for

A queue that connects on demand begins an attempt to connect for its messages: when one arrives, or
while some are left of a transport that was closed. But an attempt that was put off begins when it
is due, whether there are messages or not: the link of a queue that is done with all its messages is
opened again after it was lost.

## Main definitions

* `Loop.Overdue` : the attempt that was put off is due.

## Main results

* `Loop.Course.prompted` : what a step of the link begins an attempt for.
* `Station.attempts_prompted` : what the attempts of a run are begun for.
-/

namespace Hearth.Link

variable {M : Type}

namespace Loop

/-- The link waits, and the attempt that was put off is due. -/
def Overdue (now : Nat) (l : Loop M) : Prop :=
  l.state = .waiting ∧ l.retryAt.any (· ≤ now) = true

/-- A link that is closed is opened on demand only for messages. -/
theorem maybeConnect_prompted {l : Loop M} (hd : l.config.ondemand = true) :
    l.maybeConnect.generation = l.generation ∨ l.maybeConnect.hasTraffic = true := by
  rcases l.maybeConnect_cases with heq | ⟨hs, hwanted, heq⟩
  · exact .inl (by rw [heq])
  · refine .inr ?_
    rw [heq, Linked.startConnect_eq (by rw [hs]; rfl)]
    exact hwanted hd

theorem scheduleRetry_config (now : Nat) {l : Loop M} (reason : String)
    (hw : l.state.canGo .waiting = true) (hc : l.state.canGo .closed = true) :
    (l.scheduleRetry now reason).config = l.config := by
  rcases scheduleRetry_outcome now l reason hw hc with ⟨-, due, heq⟩ | ⟨-, heq⟩
  · rw [heq]
  · rw [heq]

section Steps

variable [Message M] {now : Nat} {heard : Option Nat} {l l' : Loop M}

/-- No step of the link changes the settings. -/
theorem Course.config (hc : l.Course now heard l') : l'.config = l.config := by
  cases hc with
  | opens before connecting after =>
    exact after.config.trans ((opened_steers ..).config.trans before.config)
  | rests before => exact before.config
  | begins before closed wanted => exact (startConnect_steers _).config.trans before.config
  | resumes before waiting due after =>
    exact after.config.trans ((startConnect_steers _).config.trans before.config)
  | @fails l₁ before connecting reason =>
    refine (scheduleRetry_config now reason ?_ ?_).trans before.config
    · change l₁.state.canGo .waiting = true
      rw [connecting]
      rfl
    · change l₁.state.canGo .closed = true
      rw [connecting]
      rfl
  | breaks before connected reason =>
    rw [linkLost_eq connected]
    exact (scheduleRetry_config now reason rfl rfl).trans before.config
  | recycles before connected reason => exact (recycle_steers ..).config.trans before.config

/-- A step of the link begins an attempt on demand for messages that are there then, or because it
is due. -/
theorem Course.prompted (hc : l.Course now heard l') (hd : l.config.ondemand = true) :
    l'.generation = l.generation ∨ l'.hasTraffic = true ∨ l.Overdue now := by
  cases hc with
  | opens before connecting after =>
    rw [after.generation, opened_eq connecting, before.generation]
    exact .inl rfl
  | rests before => exact .inl before.generation
  | begins before closed wanted =>
    rw [Linked.startConnect_eq (by rw [closed]; rfl)]
    exact .inr (.inl (wanted (by rw [before.config]; exact hd)))
  | resumes before waiting due after =>
    exact .inr (.inr ⟨before.state.symm.trans waiting, before.retryAt ▸ due⟩)
  | fails before connecting reason =>
    exact .inl ((scheduleRetry_moves ..).generation.trans before.generation)
  | breaks before connected reason =>
    exact .inl ((linkLost_moves ..).generation.trans before.generation)
  | @recycles l₁ before connected reason =>
    have hd₁ : (l₁.disconnected .closed reason).config.ondemand = true := before.config ▸ hd
    rw [recycle_eq connected]
    exact (maybeConnect_prompted hd₁).imp (·.trans before.generation) .inl

/-- What a turn of the loop begins an attempt for. -/
theorem Turn.prompted {stage stage' : Stage} {taken : List M} (ht : Turn now stage l taken stage' l')
    (hd : l.config.ondemand = true) :
    l'.generation = l.generation ∨ l'.hasTraffic = true ∨ l.Overdue now := by
  by_cases hs : stage' = .stopped
  · subst hs
    cases ht
    obtain ⟨l₁, ht, heq⟩ := l.shutdown_trades taken
    rw [heq, hangUp_eq]
    exact .inl ht.generation
  · obtain ⟨heard, l₁, hc, hpub, -⟩ := ht.course hs
    rcases hpub with rfl | rfl
    · exact hc.prompted hd
    · exact hc.prompted hd

theorem Turn.config {stage stage' : Stage} {taken : List M}
    (ht : Turn now stage l taken stage' l') : l'.config = l.config := by
  by_cases hs : stage' = .stopped
  · subst hs
    cases ht
    obtain ⟨l₁, ht, heq⟩ := l.shutdown_trades taken
    rw [heq, hangUp_eq]
    exact ht.config
  · obtain ⟨heard, l₁, hc, hpub, -⟩ := ht.course hs
    rcases hpub with rfl | rfl
    · exact hc.config
    · exact hc.config

/-- When an attempt is due the timer begins it. -/
theorem onTimer_generation (h : l.Overdue now) : (l.onTimer now).generation = l.generation + 1 := by
  obtain ⟨hs, hdue⟩ := h
  have hgo : State.canGo l.state .connecting = true := by rw [hs]; rfl
  have heq := Linked.startConnect_eq (l := { l with retryAt := none }) hgo
  dsimp only [onTimer]
  rw [if_pos (by simp [hs, hdue]), ((expire_course now _).2 (by rw [heq]; nofun)).generation, heq]

end Steps

end Loop

namespace Station

variable [Message M]

/-- A queue keeps the settings that it was started with. -/
theorem run_config (name : Name) (config : Config) (hook : Hook) (as : List (Action M)) :
    ((start name config hook).run as).queue.loop.config = config :=
  run_start (I := fun _ _ l => l.config = config) (fun _ h _ _ => h)
    (fun h _ ht => ht.config.trans h) name config hook rfl as

/-- Throughout every run of a queue that connects on demand, an attempt to connect is begun in a
turn of its loop, and then there are messages, or an attempt was put off and is due. And if one is
due when the timer is the next input, it is begun, whether there are messages or not. -/
theorem attempts_prompted (name : Name) {config : Config} (hook : Hook)
    (hd : config.ondemand = true) (as : List (Action M)) :
    let s := (start name config hook).run as
    (∀ a, (s.act a).queue.loop.generation = s.queue.loop.generation ∨
      (s.act a).queue.loop.hasTraffic = true ∨ s.queue.loop.Overdue s.now) ∧
    (s.stage = .waiting → s.queue.loop.Overdue s.now → s.queue.nextInput s.now =
      some (.timer, [], s.queue) → s.turn.queue.loop.generation = s.queue.loop.generation + 1) := by
  have hs : ((start name config hook).run as).Sound := (Sound.start name config hook).run as
  have ht := run_tended (.inr (Tended.start name config hook)) as
  have hc := run_config name config hook as
  dsimp only
  generalize (start name config hook).run as = s at hs ht hc
  refine ⟨fun a => ?_, fun hst hdue hi => ?_⟩
  · rcases act_cases hs ht a with hi | ⟨taken, l, hturn, hl, -⟩
    · obtain ⟨wire, hl⟩ := hi.loop
      exact .inl (by rw [hl])
    · rw [hl]
      exact hturn.prompted (hc ▸ hd)
  · rw [turn_waiting hst hi rfl, absorb_queue]
    exact Loop.onTimer_generation hdue

/-- A message for which the link is opened. -/
theorem attempts_prompted_sent :
    let s := (start (M := Plain) default { Config.standard with ondemand := true } .ignored).run
      [.turn, .send ⟨0⟩ ⟨false⟩, .turn]
    s.turn.queue.loop.generation ≠ s.queue.loop.generation ∧
      ((s.act .turn).queue.loop.generation = s.queue.loop.generation ∨
        (s.act .turn).queue.loop.hasTraffic = true ∨ s.queue.loop.Overdue s.now) :=
  ⟨by decide, (attempts_prompted default .ignored rfl _).1 .turn⟩

/-! ### A queue that is done with all its messages -/

/-- The link waits, and there is nothing to be done until the next attempt is due. -/
structure Dormant (due : Nat) (s : Station M) : Prop where
  state : s.queue.loop.state = .waiting
  retryAt : s.queue.loop.retryAt = some due
  idle : s.queue.loop.hasTraffic = false
  control : s.queue.control.items = []
  traffic : s.queue.traffic.items = []
  held : s.queue.held = true

namespace Dormant

variable {s s' : Station M} {due : Nat}

omit [Message M] in
/-- What leaves the link, the messages and the channels alone. -/
theorem frame (h : s.Dormant due) (status : Status) (hl : s'.queue.loop =
    { s.queue.loop with status, log := [] }) (hc : s'.queue.control = s.queue.control)
    (ht : s'.queue.traffic.items = []) (hh : s'.queue.held = s.queue.held) : s'.Dormant due where
  state := by rw [hl]; exact h.state
  retryAt := by rw [hl]; exact h.retryAt
  idle := by rw [hl]; exact h.idle
  control := by rw [hc]; exact h.control
  traffic := ht
  held := by rw [hh]; exact h.held

/-- There is no message to be taken. -/
theorem gather (h : s.Dormant due) (hst : s.stage = .handled) :
    s.turn.Dormant due ∧ s.turn.stage = .writing := by
  have hsame : s.queue.loop.gather s.queue.traffic.items = s.queue.loop := by
    rw [h.traffic, Loop.gather, List.foldl_nil, Loop.maybeConnect, if_pos (by simp [h.state])]
  have hturn : s.turn = (s.become (s.queue.gather s.now).2 .writing).absorb
      (s.queue.gather s.now).1 := by simp only [turn, hst]
  have hl : (s.queue.gather s.now).2.loop = { s.queue.loop with log := [] } := by
    change { s.queue.loop.gather s.queue.traffic.items with log := [] } = _
    rw [hsame]
  rw [hturn]
  refine ⟨h.frame s.queue.loop.status ?_ ?_ ?_ ?_, absorb_stage ..⟩
  all_goals rw [absorb_queue]
  · exact hl
  all_goals rfl

/-- There is no message to be written. -/
theorem rest (h : s.Dormant due) (hst : s.stage = .writing) :
    s.turn.Dormant due ∧ s.turn.stage = .waiting := by
  have hround : s.queue.loop.round s.now = (false, s.queue.loop) := by
    rw [Loop.round, if_pos (by simp [h.state])]
  have hturn : s.turn = (s.become ({ s.queue with loop := s.queue.loop.publish }.drain s.now
      s.queue.loop).2 .waiting).absorb
        ({ s.queue with loop := s.queue.loop.publish }.drain s.now s.queue.loop).1 := by
    simp only [turn, hst, Queue.write, hround]
    rfl
  rw [hturn]
  refine ⟨h.frame s.queue.loop.snapshot ?_ ?_ ?_ ?_, absorb_stage ..⟩
  all_goals rw [absorb_queue]
  · rfl
  · rfl
  · exact h.traffic
  · rfl

/-- The timer is the next input when the attempt is due, and begins it. -/
theorem wake (h : s.Dormant due) (hst : s.stage = .waiting) (hdue : due ≤ s.now) :
    s.turn.queue.loop.generation = s.queue.loop.generation + 1 ∧
      s.turn.queue.loop.hasTraffic = false := by
  have hidle : s.queue.loop.receivers = [] ∧ s.queue.loop.buckets.all = [] := by
    simpa [Loop.hasTraffic] using h.idle
  have hover : s.queue.loop.Overdue s.now := ⟨h.state, by simpa [h.retryAt] using hdue⟩
  have hnext : s.queue.nextInput s.now = some (.timer, [], s.queue) := by
    simp [Queue.nextInput, Channel.take?, h.control, h.traffic, h.held, Loop.nextDeadline, hidle.1,
      h.state, h.retryAt, hdue]
  have hstart : s.queue.loop.onTimer s.now = { s.queue.loop with retryAt := none }.startConnect := by
    have hnone : ({ s.queue.loop with retryAt := none }.startConnect).receivers = [] :=
      (Loop.startConnect_steers _).receivers.trans hidle.1
    dsimp only [Loop.onTimer]
    rw [if_pos (by simp [hover.1, hover.2])]
    simp [Loop.expire, hnone]
  have hl : s.turn.queue.loop = { s.queue.loop.onTimer s.now with log := [] } := by
    rw [turn_waiting hst hnext rfl, absorb_queue]
    rfl
  have hgo : State.canGo s.queue.loop.state .connecting = true := by rw [h.state]; rfl
  rw [hl, hstart, Loop.Linked.startConnect_eq (l := { s.queue.loop with retryAt := none }) hgo]
  exact ⟨rfl, h.idle⟩

/-- A queue that is done with all its messages waits when its link breaks. -/
theorem of_lost {reason : String} (hst : s.stage = .waiting) (hs : s.queue.loop.state = .connected)
    (hmore : s.queue.loop.backoff.isExhausted = false) (hidle : s.queue.loop.hasTraffic = false)
    (hc : s.queue.control.items = [.lost s.queue.loop.generation reason])
    (ht : s.queue.traffic.items = []) (hh : s.queue.held = true) :
    ∃ due, s.turn.Dormant due ∧ s.turn.stage = .handled := by
  obtain ⟨woken, control, hnext, hnone⟩ : ∃ woken control, s.queue.nextInput s.now =
      some (.control (.lost s.queue.loop.generation reason), woken, { s.queue with control }) ∧
        control.items = [] := by
    cases hw : s.queue.control.waiting with
    | nil =>
      simp only [Queue.nextInput, Channel.take?, hc, hw]
      exact ⟨_, _, rfl, rfl⟩
    | cons id waiting =>
      simp only [Queue.nextInput, Channel.take?, hc, hw]
      exact ⟨_, _, rfl, rfl⟩
  have hlost : s.queue.loop.handle s.now (.control (.lost s.queue.loop.generation reason)) =
      (s.queue.loop.disconnected .closing reason).scheduleRetry s.now reason := by
    rw [Loop.handle, Loop.onControl, if_pos (by simp [hs]), Loop.linkLost_eq hs]
  have hturn := turn_waiting hst hnext rfl
  have hl : s.turn.queue.loop = { s.queue.loop.handle s.now
      (.control (.lost s.queue.loop.generation reason)) with log := [] } := by
    rw [hturn, absorb_queue]
    rfl
  rcases Loop.scheduleRetry_outcome s.now (s.queue.loop.disconnected .closing reason) reason rfl rfl
    with ⟨-, due, heq⟩ | ⟨hex, -⟩
  · rw [hlost, heq] at hl
    refine ⟨due, ⟨?_, ?_, ?_, ?_, ?_, ?_⟩, ?_⟩
    · rw [hl]
    · rw [hl]
    · rw [hl]
      exact hidle
    · rw [hturn, absorb_queue]
      exact hnone
    · rw [hturn, absorb_queue]
      exact ht
    · rw [hturn, absorb_queue]
      exact hh
    · rw [hturn, absorb_stage]
      rfl
  · exact absurd (hmore.symm.trans hex) Bool.false_ne_true

end Dormant

/-- A link that breaks when its queue is done with all messages is opened again. -/
theorem reopened_idle {s : Station M} (reason : String) (hst : s.stage = .waiting)
    (hs : s.queue.loop.state = .connected) (hmore : s.queue.loop.backoff.isExhausted = false)
    (hidle : s.queue.loop.hasTraffic = false)
    (hc : s.queue.control.items = [.lost s.queue.loop.generation reason])
    (ht : s.queue.traffic.items = []) (hh : s.queue.held = true) :
    ∃ nanos, let s' := s.run [.turn, .turn, .turn, .pass nanos]
      s'.queue.loop.hasTraffic = false ∧ s'.turn.queue.loop.hasTraffic = false ∧
        s'.turn.queue.loop.generation = s'.queue.loop.generation + 1 := by
  obtain ⟨due, h₁, hst₁⟩ := Dormant.of_lost hst hs hmore hidle hc ht hh
  obtain ⟨h₂, hst₂⟩ := h₁.gather hst₁
  obtain ⟨h₃, hst₃⟩ := h₂.rest hst₂
  refine ⟨due, h₃.idle, ?_⟩
  have h₄ : ({ s.turn.turn.turn with now := s.turn.turn.turn.now + due }).Dormant due :=
    ⟨h₃.state, h₃.retryAt, h₃.idle, h₃.control, h₃.traffic, h₃.held⟩
  exact (h₄.wake hst₃ (Nat.le_add_left ..)).symm

/-- An attempt to connect that is begun while there is no message. -/
theorem attempt_unprompted : ∃ nanos,
    let s := (start (M := Plain) default { Config.standard with ondemand := true } .ignored).run
      [.turn, .send ⟨0⟩ ⟨false⟩, .turn, .turn, .turn, .decide 1 none, .report ⟨0⟩ 1, .turn, .turn,
        .turn, .turn, .lost ⟨0⟩ 1 "cable pulled", .turn, .turn, .turn, .pass nanos]
    s.queue.loop.hasTraffic = false ∧ s.turn.queue.loop.hasTraffic = false ∧
      s.turn.queue.loop.generation = s.queue.loop.generation + 1 :=
  reopened_idle (s := (start (M := Plain) default
    { Config.standard with ondemand := true } .ignored).run
      [.turn, .send ⟨0⟩ ⟨false⟩, .turn, .turn, .turn, .decide 1 none, .report ⟨0⟩ 1, .turn, .turn,
        .turn, .turn, .lost ⟨0⟩ 1 "cable pulled"]) "cable pulled"
    (by decide) (by decide) (by decide) (by decide) (by decide) (by decide) (by decide)

end Station

end Hearth.Link

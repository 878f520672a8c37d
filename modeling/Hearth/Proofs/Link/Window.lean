import Hearth.Proofs.Link.Steady
import Hearth.Proofs.Link.Steering
import Hearth.Proofs.Link.Transport
import Hearth.Proofs.Link.Turns

/-!
# How many messages wait

A loop lets a message wait for its reply only after it looked at those that wait already: none of
them may be blocking, and there may not be too many. Everything else that it does with them leaves
some out or keeps them in their places. So a blocking message that waits is always the last one, and
nothing is written while it waits.

## Main definitions

* `Loop.Windowed` : only the last message that waits may be blocking, and not too many wait.
* `Loop.Narrows` : no message starts to wait, and no frame is written.
* `Station.Windowed` : the limits on the messages that wait, for a station.

## Main results

* `Loop.Windowed.turn` : the turns of a loop keep the window.
* `Station.window_kept` : the window is kept throughout every run.
-/

namespace Hearth.Link

variable {M : Type}

/-- Is an output a frame, whether it got through or not? -/
def Output.isFrame : Output M → Bool
  | .wrote .. => true
  | .writeFailed .. => true
  | _ => false

theorem Output.not_isFrame_of_isCalm {o : Output M} (h : o.isCalm = true) : o.isFrame = false := by
  cases o <;> simp_all [isCalm, isFrame]

theorem Output.not_isFrame_of_isLink {o : Output M} (h : o.isLink = true) : o.isFrame = false := by
  cases o <;> simp_all [isLink, isFrame]

namespace Loop

variable [Message M]

/-- Which of some messages are blocking. -/
def flags (ps : List (Pending M)) : List Bool := ps.map fun p => Message.blocking p.message

/-- Of the messages that wait only the last one may be blocking, and there are no more of them than
the settings of the loop allow. -/
structure Windowed (settings : Config) (l : Loop M) : Prop where
  config : l.config = settings
  last : (flags l.receivers).Pairwise fun earlier _ => earlier = false
  few : ∀ most, settings.maxOpen = some most → l.receivers.length ≤ most

/-- `l'` comes from `l` without a message that starts to wait, and without a frame. -/
structure Narrows (l l' : Loop M) : Prop where
  config : l'.config = l.config
  flags : (flags l'.receivers).Sublist (flags l.receivers)
  log : ∃ es, l'.log = es ++ l.log ∧ ∀ e ∈ es, e.isFrame = false

/-- A window gets no wider when messages wait no more. -/
theorem Windowed.thin {settings : Config} {l l' : Loop M} (h : l.Windowed settings)
    (hc : l'.config = l.config) (hf : (Loop.flags l'.receivers).Sublist (Loop.flags l.receivers)) :
    l'.Windowed settings where
  config := hc.trans h.config
  last := h.last.sublist hf
  few := by
    intro most hmost
    have hlen : l'.receivers.length ≤ l.receivers.length := by
      simpa only [Loop.flags, List.length_map] using hf.length_le
    exact Nat.le_trans hlen (h.few most hmost)

/-- At most one of the messages that wait is blocking. -/
theorem Windowed.single {settings : Config} {l : Loop M} (h : l.Windowed settings) :
    (l.receivers.countP fun p => Message.blocking p.message) ≤ 1 := by
  have hcount (bs : List Bool) (hbs : bs.Pairwise fun earlier _ => earlier = false) :
      bs.countP id ≤ 1 := by
    induction bs with
    | nil => exact Nat.zero_le 1
    | cons b bs ih =>
      obtain ⟨hb, hbs⟩ := List.pairwise_cons.mp hbs
      cases bs with
      | nil => cases b <;> simp
      | cons b' bs =>
        rw [hb b' List.mem_cons_self, List.countP_cons_of_neg (by simp)]
        exact ih hbs
  have hflags := hcount _ h.last
  rwa [flags, List.countP_map] at hflags

namespace Narrows

variable {settings : Config} {l l' l₁ l₂ l₃ : Loop M}

theorem of_steers (h : l.Steers l') : l.Narrows l' := by
  obtain ⟨es, hl, hes⟩ := h.log
  refine ⟨h.config, ?_, es, hl, fun e he => Output.not_isFrame_of_isLink (hes e he)⟩
  rw [h.receivers]

theorem of_calm (h : l.Calm l') (hr : (Loop.flags l'.receivers).Sublist (Loop.flags l.receivers)) :
    l.Narrows l' := by
  obtain ⟨es, hl, hes⟩ := h.log
  exact ⟨h.config, hr, es, hl, fun e he => Output.not_isFrame_of_isCalm (hes e he)⟩

theorem of_asks {ms : List M} (h : l.Asks ms l') : l.Narrows l' := by
  obtain ⟨es, rfl, hes⟩ := h
  refine ⟨rfl, .refl _, es, rfl, fun e he => ?_⟩
  obtain ⟨m, -, q, rfl⟩ := hes e he
  rfl

theorem refl (l : Loop M) : l.Narrows l := .of_steers (.refl l)

theorem trans (h₁ : l₁.Narrows l₂) (h₂ : l₂.Narrows l₃) : l₁.Narrows l₃ := by
  obtain ⟨es₁, he₁, hn₁⟩ := h₁.log
  obtain ⟨es₂, he₂, hn₂⟩ := h₂.log
  refine ⟨h₂.config.trans h₁.config, h₂.flags.trans h₁.flags, es₂ ++ es₁, ?_, ?_⟩
  · rw [he₂, he₁, List.append_assoc]
  · intro e he
    rcases List.mem_append.mp he with he | he
    · exact hn₂ e he
    · exact hn₁ e he

theorem foldl {β : Type} {f : Loop M → β → Loop M} (hf : ∀ (l : Loop M) (x : β), l.Narrows (f l x))
    (xs : List β) (l : Loop M) : l.Narrows (xs.foldl f l) := by
  induction xs generalizing l with
  | nil => exact .refl l
  | cons x xs ih => exact (hf l x).trans (ih _)

theorem windowed (h : l.Narrows l') (hl : l.Windowed settings) : l'.Windowed settings :=
  hl.thin h.config h.flags

end Narrows

/-! ### What narrows the window -/

theorem failAll_narrows (l : Loop M) (e : QueueError) : l.Narrows (l.failAll e) := by
  refine .of_calm (failAll_calm l e) ?_
  rw [(l.failAll_receivers e).1]
  exact List.nil_sublist _

theorem accept_narrows (l : Loop M) (m : M) : l.Narrows (l.accept m) :=
  .of_calm (accept_calm l m) (.refl _)

theorem scheduleRetry_narrows (now : Nat) (l : Loop M) (reason : String) :
    l.Narrows (l.scheduleRetry now reason) := by
  have hput (b : Backoff) (delay : Span) :
      l.Narrows (Loop.putOff now { l with lastError := some reason, backoff := b } delay) :=
    .of_steers (.trans (.of_eq (by rfl)) (putOff_steers ..))
  have hgive : l.Narrows (Loop.giveUp { l with lastError := some reason } reason) := by
    have hl : l.Narrows { l with lastError := some reason } := .of_steers (.of_eq rfl)
    exact (hl.trans (failAll_narrows ..)).trans
      (.of_steers (.trans (.of_eq (by rfl)) (transition_steers _ .closed)))
  dsimp only [scheduleRetry]
  split
  · exact hput _ _
  · exact hput _ _
  · exact hput _ _
  · exact hgive

theorem linkLost_narrows (now : Nat) (l : Loop M) (reason : String) :
    l.Narrows (l.linkLost now reason) :=
  .trans (.of_steers (.put l.teardown_steers rfl)) (scheduleRetry_narrows ..)

/-- A message that took data stays where it was, or waits no more. -/
theorem follow_narrows (now : Nat) (l : Loop M) (p : Pending M) {before after : List (Pending M)}
    (answer : Except QueueError RecvDirective) (hr : l.receivers = before ++ after) :
    Narrows { l with receivers := before ++ p :: after }
      (l.follow now p.message before after answer) := by
  have hgone : Narrows { l with receivers := before ++ p :: after } l := by
    refine .of_calm (.of_eq rfl) ?_
    rw [hr, flags, flags, List.map_append, List.map_append]
    exact (List.Sublist.refl _).append (List.sublist_cons_self ..)
  have hask (l : Loop M) (q : Question) (hq : (Output.asked p.message q).isCalm = true) :
      l.Calm (l.ask p.message q) := .put (.refl l) hq
  dsimp only [follow]
  split
  · have hput : l.Calm (l.put (.done p.message)) := .put (.refl l) rfl
    exact hgone.trans (.trans (.of_calm hput (.refl _)) (.of_steers (completed_steers _)))
  · split
    · exact hgone.trans (.of_calm ((hask l .blocking rfl).trans (pushFront_calm ..)) (.refl _))
    · exact hgone.trans (.of_calm ((hask l .blocking rfl).trans (pushBack_calm ..)) (.refl _))
  · refine .of_calm ((hask _ .timeout rfl).trans (.of_eq rfl)) ?_
    simp only [flags, List.map_append, List.map_cons, List.Sublist.refl]
  · next e =>
    have hput : l.Calm ((l.ask p.message .describe).put (.failed p.message e)) :=
      .put (hask l .describe rfl) rfl
    exact hgone.trans (.trans (.of_calm hput (.refl _)) (.of_steers (recycle_steers ..)))

theorem expire_narrows (now : Nat) (l : Loop M) : l.Narrows (l.expire now) := by
  have hfew : l.Narrows { l with receivers := l.receivers.filter fun p => !isLate now p } :=
    .of_calm (.of_eq rfl) (List.filter_sublist.map _)
  have hlate (ps : List (Pending M)) (l : Loop M) : l.Narrows (ps.foldl failLate l) :=
    .foldl (fun l p => .of_calm (failLate_calm l p) (.refl _)) ps l
  dsimp only [expire]
  split
  · exact .refl l
  · split
    · exact (hfew.trans (hlate ..)).trans (.of_steers (recycle_steers ..))
    · exact hfew.trans (hlate ..)

theorem onTimer_narrows (now : Nat) (l : Loop M) : l.Narrows (l.onTimer now) := by
  refine .trans ?_ (expire_narrows now _)
  split
  · exact .of_steers (.trans (.of_eq (by rfl)) (startConnect_steers _))
  · exact .refl l

theorem gather_narrows (backlog : List M) (l : Loop M) : l.Narrows (l.gather backlog) :=
  .trans (.foldl accept_narrows backlog l) (.of_steers (maybeConnect_steers _))

theorem shutdown_narrows (backlog : List M) (l : Loop M) :
    l.Narrows (l.shutdown backlog).publish := by
  have hf : l.Narrows ((backlog.foldl accept l.abort).failAll .closed) :=
    .trans (.trans (.of_steers l.abort_steers) (.foldl accept_narrows backlog _))
      (failAll_narrows ..)
  exact hf.trans (.of_steers ((hangUp_steers _).trans (publish_steers _)))

/-! ### Writing -/

omit [Message M] in
theorem writeFrames_config (generation : Nat) (frames : List Bytes) (l : Loop M) :
    (writeFrames generation frames l).2.config = l.config := by
  induction frames generalizing l with
  | nil => rfl
  | cons frame frames ih =>
    rw [writeFrames]
    split
    · rfl
    · exact ih _
    · exact ih _

omit [Message M] in
theorem write_config (l : Loop M) (frames : List Bytes) :
    (l.write frames).2.config = l.config := by
  unfold write
  split
  · exact writeFrames_config ..
  · rfl

namespace Windowed

variable {settings : Config} {l l' : Loop M}

/-- One more message can wait if none of those that do is blocking, and there is room. -/
theorem await (h : l.Windowed settings)
    (hfree : ∀ p ∈ l.receivers, Message.blocking p.message = false)
    (hroom : ∀ most, settings.maxOpen = some most → l.receivers.length < most) (now : Nat) (m : M) :
    (l.await now m).Windowed settings where
  config := h.config
  last := by
    have hall : ∀ b ∈ flags l.receivers, b = false := by simpa [flags] using hfree
    simp only [Loop.await, flags, List.map_append]
    refine List.pairwise_append.mpr ⟨h.last, List.pairwise_singleton .., fun b hb _ _ => hall b hb⟩
  few := by
    intro most hmost
    have hlen : (l.await now m).receivers.length = l.receivers.length + 1 := List.length_append
    rw [hlen]
    exact hroom most hmost

theorem afterSend (h : l.Windowed settings)
    (hfree : ∀ p ∈ l.receivers, Message.blocking p.message = false)
    (hroom : ∀ most, settings.maxOpen = some most → l.receivers.length < most) (now : Nat)
    (c : Traffic) (m : M) (d : SendDirective) : (l.afterSend now c m d).Windowed settings := by
  cases d with
  | done =>
    have hput : l.Calm (l.put (.done m)) := .put (.refl l) rfl
    exact Narrows.windowed (.trans (.of_calm hput (.refl _)) (.of_steers (completed_steers _))) h
  | sendAgain => exact h.thin rfl (.refl _)
  | recvAgain => exact h.await hfree hroom now m

theorem sendOne (h : l.Windowed settings)
    (hfree : ∀ p ∈ l.receivers, Message.blocking p.message = false)
    (hroom : ∀ most, settings.maxOpen = some most → l.receivers.length < most) (now : Nat)
    (c : Traffic) (m : M) : (l.sendOne now c m).2.Windowed settings := by
  dsimp only [Loop.sendOne]
  split
  · exact h.thin rfl (.refl _)
  · next m' frames d hs =>
    have hc := write_config (l.ask m .send) frames
    have hr := (write_spares (l.ask m .send) frames).receivers
    split
    · next e l₁ hw =>
      rw [hw] at hc hr
      refine (linkLost_narrows now _ e.text).windowed (h.thin hc ?_)
      rw [show _ = l.receivers from hr]
    · next l₁ hw =>
      rw [hw] at hc hr
      have hr : l₁.receivers = l.receivers := hr
      have hl : Windowed settings { l₁ with sent := l₁.sent + 1 } := h.thin hc (by rw [hr])
      exact hl.afterSend (by rwa [hr]) (by rwa [hr]) now c m' d

/-- Before a message is written the loop looks at those that wait. -/
theorem round (h : l.Windowed settings) (now : Nat) : (l.round now).2.Windowed settings := by
  have ha := anyBlocking_asks l.receivers l
  have hb := anyBlocking_fst l.receivers l
  unfold Loop.round
  split
  · exact h
  · split
    · next l₁ heq =>
      rw [heq] at ha
      exact (Narrows.of_asks ha).windowed h
    · next l₁ heq =>
      rw [heq] at ha hb
      have h₁ := (Narrows.of_asks ha).windowed h
      have hr := ha.receivers
      split
      · exact h₁
      · next hroom =>
        split
        · exact h₁
        · next c m b _ =>
          have hpop : Windowed settings { l₁ with buckets := b } := h₁.thin rfl (.refl _)
          refine hpop.sendOne ?_ ?_ now c m
          · rw [show _ = l.receivers from hr]
            exact fun p hp => by simpa using List.any_eq_false.mp hb.symm p hp
          · intro most hmost
            rw [h₁.config, hmost] at hroom
            simpa using hroom

end Windowed

/-- Nothing is written while a blocking message waits. -/
theorem round_narrows {now : Nat} {l : Loop M}
    (h : ∃ p ∈ l.receivers, Message.blocking p.message = true) : l.Narrows (l.round now).2 := by
  have ha := anyBlocking_asks l.receivers l
  have hb : (anyBlocking l.receivers l).1 = true := by
    rw [anyBlocking_fst]
    exact List.any_eq_true.mpr h
  unfold round
  split
  · exact .refl l
  · split
    · next l₁ heq =>
      rw [heq] at ha
      exact .of_asks ha
    · next l₁ heq =>
      rw [heq] at hb
      exact absurd hb nofun

section Steady

variable (hsteady : Steady (Message.blocking (M := M)))

include hsteady

/-! ### Turns -/

theorem kept_flags (now : Nat) (ps : List (Pending M)) :
    (flags (kept now ps)).Sublist (flags ps) := by
  induction ps with
  | nil => exact .refl _
  | cons p ps ih =>
    rw [kept, List.filterMap_cons]
    split
    · exact ih.trans (List.sublist_cons_self ..)
    · next q hq =>
      have hb : Message.blocking q.message = Message.blocking p.message := by
        split at hq
        · next m hm =>
          obtain rfl := Option.some.inj hq
          rw [← hsteady.retry p.message, hm]
        · simp at hq
      rw [flags, List.map_cons, hb]
      exact ih.cons_cons _

theorem retryPending_narrows (now : Nat) (l : Loop M) : l.Narrows (l.retryPending now) := by
  refine .of_calm (retryPending_calm now l) ?_
  rw [retryPending_receivers]
  exact kept_flags hsteady now l.receivers

theorem route_narrows (now : Nat) (l : Loop M) (data : Bytes) : l.Narrows (l.route now data) := by
  have hcount : l.Narrows { l with received := l.received + 1 } := .of_calm (.of_eq rfl) (.refl _)
  have ha := offer_asks data l.receivers { l with received := l.received + 1 }
  have hr := ha.receivers
  have ho := hcount.trans (.of_asks ha)
  dsimp only [route]
  split
  · next l₁ all hoff =>
    rw [hoff] at hr ho
    have hall : l₁.Narrows { l₁ with receivers := all } := by
      refine .of_calm (.of_eq rfl) ?_
      rw [show _ = l.receivers from hr, flags, flags, map_of_offer_none hsteady hoff]
    exact (ho.trans hall).trans (.of_calm (.put (.refl _) rfl) (.refl _))
  · next l₁ before p answer after hoff =>
    rw [hoff] at hr ho
    have hall : l₁.Narrows { l₁ with receivers := before ++ p :: after } := by
      refine .of_calm (.of_eq rfl) ?_
      rw [show _ = l.receivers from hr, flags, flags, map_of_offer_some hsteady hoff,
        List.map_append, List.map_cons]
    exact (ho.trans hall).trans
      (follow_narrows now { l₁ with receivers := before ++ after } p answer rfl)

theorem onControl_narrows (now : Nat) (l : Loop M) (item : Control) :
    l.Narrows (l.onControl now item) := by
  cases item with
  | incoming generation data =>
    dsimp only [onControl]
    split
    · exact .refl l
    · exact route_narrows hsteady now l data
  | lost generation reason =>
    dsimp only [onControl]
    split
    · exact linkLost_narrows ..
    · exact .refl l
  | connected generation =>
    dsimp only [onControl]
    split
    · exact .of_steers (.put (.refl l) rfl)
    · exact .trans (.of_steers (opened_steers ..)) (retryPending_narrows hsteady ..)
  | connectFailed generation reason =>
    dsimp only [onControl]
    split
    · exact .trans (.of_steers (.put (.of_eq (by rfl)) (by rfl))) (scheduleRetry_narrows ..)
    · exact .refl l
  | reopen =>
    dsimp only [onControl]
    split
    · exact .of_steers (recycle_steers ..)
    · exact .refl l
  | close => exact .refl l

theorem handle_narrows (now : Nat) (l : Loop M) (input : Input M) :
    l.Narrows (l.handle now input) := by
  cases input with
  | control item => exact onControl_narrows hsteady now l item
  | traffic m => exact accept_narrows l m
  | timer => exact onTimer_narrows now l
  | abandoned => exact .refl l

variable {settings : Config} {now : Nat} {stage stage' : Stage} {taken : List M} {l l' : Loop M}

theorem Windowed.turn (h : l.Windowed settings) (ht : Turn now stage l taken stage' l') :
    l'.Windowed settings := by
  cases ht with
  | begin =>
    exact Narrows.windowed (.of_steers (l.maybeConnect_steers.trans (publish_steers _))) h
  | handle input => exact (handle_narrows hsteady now l input).windowed h
  | stop => exact (shutdown_narrows taken l).windowed h
  | gather => exact (gather_narrows taken l).windowed h
  | write written => simpa only [written] using h.round now
  | @rest _ l' done =>
    have hr : l'.Windowed settings := by simpa only [done] using h.round now
    exact Narrows.windowed (.of_steers (publish_steers l')) hr

/-- No turn writes a frame while a blocking message waits. -/
theorem Turn.narrows (ht : Turn now stage l taken stage' l')
    (h : ∃ p ∈ l.receivers, Message.blocking p.message = true) : l.Narrows l' := by
  cases ht with
  | begin => exact .of_steers (l.maybeConnect_steers.trans (publish_steers _))
  | handle input => exact handle_narrows hsteady now l input
  | stop => exact shutdown_narrows taken l
  | gather => exact gather_narrows taken l
  | write written =>
    have hr : l.Narrows (l.round now).2 := round_narrows h
    rwa [written] at hr
  | @rest _ l' done =>
    have hr : l.Narrows (l.round now).2 := round_narrows h
    rw [done] at hr
    exact hr.trans (.of_steers (publish_steers l'))

end Steady

end Loop

namespace Station

variable [Message M]

/-- The limits on the messages that wait for a reply, under a configuration. -/
structure Windowed (config : Config) (s : Station M) : Prop where
  /-- At most one of them is blocking. -/
  single : (s.queue.loop.receivers.countP fun p => Message.blocking p.message) ≤ 1
  /-- A blocking one is the last. -/
  last : ∀ before p after, s.queue.loop.receivers = before ++ p :: after →
    Message.blocking p.message = true → after = []
  /-- There are no more of them than may be. -/
  few : ∀ most, config.maxOpen = some most → s.queue.loop.receivers.length ≤ most
  /-- While one of them is blocking, whatever is done next writes no frame. -/
  silent : (∃ p ∈ s.queue.loop.receivers, Message.blocking p.message = true) → ∀ a,
    ∃ es, (s.act a).past = es ++ s.past ∧ ∀ o ∈ es, o.isFrame = false

/-- Whatever is done around a queue whose messages stay blocking or not, in any order: at most one
blocking message waits, nothing waits behind it, and no frame is written while it does; and no more
messages wait than may. -/
theorem window_kept (hsteady : Steady (Message.blocking (M := M))) (name : Name) (config : Config)
    (hook : Hook) (as : List (Action M)) :
    ((start name config hook).run as).Windowed config := by
  have hrun : let s := (Station.start name config hook).run as
      s.queue.loop.Windowed config := by
    refine run_start (I := fun _ _ l => l.Windowed config) ?_ ?_ name config hook ?_ as
    · exact fun wire h _ _ => h.thin rfl (.refl _)
    · exact fun h _ ht => (h.turn hsteady.numbered ht).thin rfl (.refl _)
    · exact ⟨rfl, .nil, fun most _ => Nat.zero_le most⟩
  have hsound := (Sound.start (M := M) name config hook).run as
  have htended := run_tended (.inr (Tended.start (M := M) name config hook)) as
  generalize (start name config hook).run as = s at hrun hsound htended
  have hlast : ∀ before p after, s.queue.loop.receivers = before ++ p :: after →
      Message.blocking p.message = true → after = [] := by
    intro before p after hr hp
    cases after with
    | nil => rfl
    | cons q after =>
      have hpair := hrun.last
      rw [hr, Loop.flags, List.map_append, List.pairwise_append] at hpair
      have hp' := (List.pairwise_cons.mp hpair.2.1).1 _ List.mem_cons_self
      exact absurd (hp.symm.trans hp') nofun
  refine ⟨hrun.single, hlast, hrun.few, fun hb a => ?_⟩
  rcases act_cases hsound htended a with hi | ⟨taken, l, hturn, -, hp, -⟩
  · obtain ⟨es, hp, hes⟩ := hi.past
    refine ⟨es, hp, fun o ho => ?_⟩
    obtain ⟨m, e, rfl⟩ := hes o ho
    rfl
  · obtain ⟨es, hl, hes⟩ := (hturn.narrows hsteady.numbered hb).log
    rw [hsound.keeps.log, List.append_nil] at hl
    exact ⟨es, hl ▸ hp, hes⟩

/-- A blocking message waits, and another one stays in its bucket meanwhile. -/
theorem window_kept_blocking :
    let m : Parcel := .rehearsed { (default : Rehearsed) with
      blocking := true, parts := [([], .directive .recvAgain)] }
    let s := (start (M := Parcel) default .standard .ignored).run
      [.turn, .decide 1 none, .report ⟨0⟩ 1, .trySend m, .turn, .turn, .turn, .trySend m, .turn,
        .turn, .turn, .turn]
    Steady (Message.blocking (M := Parcel)) ∧
      (s.queue.loop.receivers.length = 1 ∧ s.queue.loop.buckets.all.length = 1) ∧
      s.Windowed .standard :=
  ⟨Parcel.steady_blocking, by decide, window_kept Parcel.steady_blocking ..⟩

end Station

end Hearth.Link

import Hearth.Proofs.Link.Station
import Mathlib.Data.List.Perm.Basic

/-!
# Who has a message

A message that was given to a queue is in the hands of one party at a time: of whoever just took it,
of the loop, or of nobody any more, once it is finished. `Loop.Keeps past given hand l` says that of
a loop whose earlier outputs are `past`, of all messages `given`, and of those that are in the hand
of the function that runs. Each operation of a loop is shown to hand its messages on.

## Main definitions

* `Output.finished?` : the number of the message that an output finishes.
* `Loop.held` : the messages that a loop has.
* `Loop.Keeps` : no message is lost, none is had twice, and nothing is done with a finished one.

## Main results

* `Loop.Keeps.handle`, `Loop.Keeps.gather`, `Loop.Keeps.round`, `Loop.Keeps.shutdown` : the turns of
  a loop.
-/

namespace Hearth.Link

variable {M : Type}

/-! ### Numbers -/

/-- The number of the message that an output is about. -/
def Output.number? (o : Output (Numbered M)) : Option Nat := o.message?.map (·.number)

/-- The number of the message that an output finishes. -/
def Output.finished? : Output (Numbered M) → Option Nat
  | .done m => some m.number
  | .failed m _ => some m.number
  | _ => none

theorem Output.number?_of_finished? {o : Output (Numbered M)} {n : Nat}
    (h : o.finished? = some n) : o.number? = some n := by
  cases o <;> simp_all [finished?, number?, message?]

theorem Output.finished?_of_message? {o : Output (Numbered M)} (h : o.message? = none) :
    o.finished? = none := by
  cases o <;> simp_all [finished?, message?]

namespace Buckets

theorem all_pushBack (b : Buckets M) (c : Traffic) (m : M) :
    (b.pushBack c m).all.Perm (m :: b.all) := by
  classical
  rw [List.perm_iff_count]
  intro x
  cases c <;> simp [pushBack, set, get, all, List.count_cons] <;> omega

theorem all_pushFront (b : Buckets M) (c : Traffic) (m : M) :
    (b.pushFront c m).all.Perm (m :: b.all) := by
  classical
  rw [List.perm_iff_count]
  intro x
  cases c <;> simp [pushFront, set, get, all, List.count_cons] <;> omega

end Buckets

namespace Loop

/-- The numbers of messages that wait. -/
def numbers (ps : List (Pending (Numbered M))) : List Nat := ps.map (·.message.number)

/-- The numbers of the messages that a loop has. -/
def held (l : Loop (Numbered M)) : List Nat :=
  numbers l.receivers ++ l.buckets.all.map (·.number)

theorem Spares.held {l l' : Loop (Numbered M)} (h : l.Spares l') : l'.held = l.held := by
  rw [Loop.held, Loop.held, h.receivers, h.buckets]

theorem failAll_held (l : Loop (Numbered M)) (e : QueueError) : (l.failAll e).held = [] := by
  have hf (ms : List (Numbered M)) (l : Loop (Numbered M)) :
      (ms.foldl (fun l m => l.put (.failed m e)) l).held = l.held := by
    induction ms generalizing l with
    | nil => rfl
    | cons m ms ih => exact ih _
  exact hf ..

/-- Every message of `given` is in the hand of whoever runs, or is had by the loop, or was finished,
one of these and once; and after a message was finished nothing was done with it. -/
structure Keeps (past : List (Output (Numbered M))) (given hand : List Nat)
    (l : Loop (Numbered M)) : Prop where
  distinct : given.Nodup
  perm : (hand ++ l.held ++ (l.log ++ past).filterMap Output.finished?).Perm given
  quiet : (l.log ++ past).Pairwise fun later earlier =>
    ∀ n, earlier.finished? = some n → later.number? ≠ some n

/-- The numbers of the messages that an input brings. -/
def Input.taken (input : Input (Numbered M)) : List Nat := input.messages.map (·.number)

theorem numbers_of_offer_none [Message M] {data : Bytes} {ps all : List (Pending (Numbered M))}
    {l l' : Loop (Numbered M)} (h : offer data ps l = (l', all, none)) :
    numbers ps = numbers all := by
  induction ps generalizing l l' all with
  | nil =>
    obtain ⟨-, rfl⟩ : _ ∧ _ := by simpa [offer] using h
    rfl
  | cons p ps ih =>
    dsimp only [offer] at h
    split at h
    · next m hm =>
      obtain ⟨-, rfl, hn⟩ : _ ∧ _ ∧ _ := by simpa using h
      have hp : m.number = p.message.number := congrArg (·.1.number) hm.symm
      have ht := ih (l := l.ask p.message (.recv data)) (Prod.ext rfl (Prod.ext rfl hn))
      simp only [numbers, List.map_cons, hp] at ht ⊢
      rw [ht]
    · simp at h

theorem numbers_of_offer_some [Message M] {data : Bytes}
    {ps before after : List (Pending (Numbered M))} {p : Pending (Numbered M)}
    {answer : Except QueueError RecvDirective} {l l' : Loop (Numbered M)}
    (h : offer data ps l = (l', before, some (p, answer, after))) :
    numbers ps = numbers before ++ p.message.number :: numbers after := by
  induction ps generalizing l l' before with
  | nil => simp [offer] at h
  | cons q ps ih =>
    dsimp only [offer] at h
    split at h
    · next m hm =>
      obtain ⟨-, rfl, hn⟩ : _ ∧ _ ∧ _ := by simpa using h
      have hp : m.number = q.message.number := congrArg (·.1.number) hm.symm
      have ht := ih (l := l.ask q.message (.recv data)) (Prod.ext rfl (Prod.ext rfl hn))
      simp only [numbers, List.map_cons, List.cons_append, hp] at ht ⊢
      rw [ht]
    · next m answer' _ hm =>
      obtain ⟨-, rfl, rfl, -, rfl⟩ : _ ∧ _ ∧ _ ∧ _ ∧ _ := by simpa using h
      have hp : m.number = q.message.number := congrArg (·.1.number) hm.symm
      simp only [numbers, List.map_cons, List.map_nil, List.nil_append, hp]

namespace Keeps

variable {past : List (Output (Numbered M))} {given hand hand' : List Nat}
  {l l' : Loop (Numbered M)}

/-- A message that somebody has was not finished. -/
theorem not_finished (h : l.Keeps past given hand) {n : Nat} (hn : n ∈ hand ++ l.held) :
    n ∉ (l.log ++ past).filterMap Output.finished? := by
  have hd := h.perm.nodup_iff.mpr h.distinct
  exact fun hf => (List.nodup_append.mp hd).2.2 n hn n hf rfl

/-- Messages change hands. -/
theorem of_perm (h : l.Keeps past given hand) (hl : l'.log = l.log)
    (hp : (hand' ++ l'.held).Perm (hand ++ l.held)) : l'.Keeps past given hand' where
  distinct := h.distinct
  perm := by rw [hl]; exact (hp.append_right _).trans h.perm
  quiet := hl ▸ h.quiet

/-- Something is done with a message that somebody has, or with none. -/
theorem put (h : l.Keeps past given hand) {o : Output (Numbered M)} (hf : o.finished? = none)
    (hn : ∀ n, o.number? = some n → n ∈ hand ++ l.held) : (l.put o).Keeps past given hand where
  distinct := h.distinct
  perm := by simpa only [Loop.put, held, List.cons_append, List.filterMap_cons, hf] using h.perm
  quiet := by
    refine List.pairwise_cons.mpr ⟨fun e he n hen hon => ?_, h.quiet⟩
    exact h.not_finished (hn n hon) (List.mem_filterMap.mpr ⟨e, he, hen⟩)

theorem ask (h : l.Keeps past given hand) {m : Numbered M} (q : Question)
    (hm : m.number ∈ hand ++ l.held) : (l.ask m q).Keeps past given hand := by
  refine h.put rfl fun n hn => ?_
  obtain rfl : m.number = n := by simpa [Output.number?, Output.message?] using hn
  exact hm

/-- A message in the hand is finished. -/
theorem finish {o : Output (Numbered M)} {n : Nat} (h : l.Keeps past given (n :: hand))
    (ho : o.finished? = some n) : (l.put o).Keeps past given hand where
  distinct := h.distinct
  perm := by
    refine List.Perm.trans ?_ h.perm
    simp only [Loop.put, held, List.cons_append, List.filterMap_cons, ho]
    exact List.perm_middle
  quiet := by
    refine List.pairwise_cons.mpr ⟨fun e he k hek hok => ?_, h.quiet⟩
    obtain rfl : n = k := Option.some.inj ((Output.number?_of_finished? ho).symm.trans hok)
    exact h.not_finished (by simp) (List.mem_filterMap.mpr ⟨e, he, hek⟩)

/-- The log of a loop becomes part of the past. -/
theorem drain (h : l.Keeps past given hand) (hl : l'.log = []) (hh : l'.held = l.held) :
    l'.Keeps (l.log ++ past) given hand where
  distinct := h.distinct
  perm := by simpa only [hl, hh, List.nil_append] using h.perm
  quiet := by simpa only [hl, List.nil_append] using h.quiet

/-- A new message is given into the hand. -/
theorem give (h : l.Keeps past given hand) {n : Nat} (hn : n ∉ given) :
    l.Keeps past (given ++ [n]) (n :: hand) where
  distinct := (List.perm_append_singleton n given).nodup_iff.mpr
    (List.nodup_cons.mpr ⟨hn, h.distinct⟩)
  perm := (h.perm.cons n).trans (List.perm_append_singleton n given).symm
  quiet := h.quiet

/-- What leaves the messages alone keeps them. -/
theorem spares (h : l.Keeps past given hand) (hs : l.Spares l') : l'.Keeps past given hand := by
  obtain ⟨es, hl, hn⟩ := hs.log
  have hfin : es.filterMap Output.finished? = [] := by
    rw [List.filterMap_eq_nil_iff]
    exact fun e he => Output.finished?_of_message? (hn e he)
  refine ⟨h.distinct, ?_, ?_⟩
  · rw [hl, hs.held, List.append_assoc es, List.filterMap_append, hfin, List.nil_append]
    exact h.perm
  · rw [hl, List.append_assoc, List.pairwise_append]
    refine ⟨?_, h.quiet, ?_⟩
    · refine List.Pairwise.imp_of_mem (R := fun _ _ => True) ?_ (List.pairwise_of_forall (by simp))
      intro a b ha _ _ n _ hna
      simp [Output.number?, hn a ha] at hna
    · intro a ha b _ n _ hna
      simp [Output.number?, hn a ha] at hna

/-- A message in the hand is put among those that are still to be written. -/
theorem bucket {m : Numbered M} (h : l.Keeps past given (m.number :: hand))
    (hr : l'.receivers = l.receivers) (hb : l'.buckets.all.Perm (m :: l.buckets.all))
    (hl : l'.log = l.log) : l'.Keeps past given hand := by
  refine h.of_perm hl ?_
  have hp := ((hb.map (·.number)).append_left (hand ++ numbers l.receivers)).trans List.perm_middle
  simpa only [held, hr, List.map_cons, List.append_assoc, List.cons_append] using hp

/-- A message in the hand is put among those that wait. -/
theorem receive {p : Pending (Numbered M)} (h : l.Keeps past given (p.message.number :: hand))
    (hr : l'.receivers.Perm (p :: l.receivers)) (hb : l'.buckets = l.buckets)
    (hl : l'.log = l.log) : l'.Keeps past given hand := by
  refine h.of_perm hl ?_
  have hp := ((hr.map (·.message.number)).append_right
    (l.buckets.all.map (·.number))).append_left hand
  rw [held, held, hb]
  exact hp.trans List.perm_middle

/-- The messages that wait are taken into the hand. -/
theorem takeReceivers (h : l.Keeps past given hand) (hr : l'.receivers = [])
    (hb : l'.buckets = l.buckets) (hl : l'.log = l.log) :
    l'.Keeps past given (numbers l.receivers ++ hand) := by
  refine h.of_perm hl ?_
  have hc : (numbers l.receivers ++ hand).Perm (hand ++ numbers l.receivers) :=
    List.perm_append_comm
  have hp := hc.append_right (l.buckets.all.map (·.number))
  simpa only [held, hr, hb, numbers, List.map_nil, List.nil_append, List.append_assoc] using hp

/-- Messages that somebody has are asked something. -/
theorem asks {ms : List (Numbered M)} (h : l.Keeps past given hand) (ha : l.Asks ms l')
    (hms : ∀ m ∈ ms, m.number ∈ hand ++ l.held) : l'.Keeps past given hand := by
  obtain ⟨es, rfl, hes⟩ := ha
  induction es with
  | nil => exact h
  | cons e es ih =>
    obtain ⟨m, hm, q, rfl⟩ := hes e List.mem_cons_self
    exact ask (ih fun e he => hes e (List.mem_cons_of_mem _ he)) q (hms m hm)

section Messages

variable [Message M]

theorem pushBack {m : Numbered M} (h : l.Keeps past given (m.number :: hand)) :
    (l.pushBack m).Keeps past given hand :=
  (h.ask .traffic (by simp)).bucket rfl (Buckets.all_pushBack ..) rfl

theorem pushFront {m : Numbered M} (h : l.Keeps past given (m.number :: hand)) :
    (l.pushFront m).Keeps past given hand :=
  (h.ask .traffic (by simp)).bucket rfl (Buckets.all_pushFront ..) rfl

theorem accept {m : Numbered M} (h : l.Keeps past given (m.number :: hand)) :
    (l.accept m).Keeps past given hand :=
  ((h.ask .describe (by simp)).pushBack).of_perm rfl (.refl _)

theorem await {m : Numbered M} (now : Nat) (h : l.Keeps past given (m.number :: hand)) :
    (l.await now m).Keeps past given hand :=
  (h.ask .timeout (by simp)).receive (p := ⟨m, deadline now m⟩) List.perm_append_comm rfl rfl

end Messages

/-- Messages in the hand are failed, one after the other. -/
theorem failMany (e : QueueError) (ms : List (Numbered M))
    (h : l.Keeps past given (ms.map (·.number) ++ hand)) :
    (ms.foldl (fun l m => l.put (.failed m e)) l).Keeps past given hand := by
  induction ms generalizing l with
  | nil => exact h
  | cons m ms ih => exact ih (finish (o := .failed m e) h rfl)

theorem failAll (h : l.Keeps past given hand) (e : QueueError) :
    (l.failAll e).Keeps past given hand := by
  refine failMany e _ (h.of_perm rfl ?_)
  have hheld : ({ l with receivers := [], buckets := .empty } : Loop (Numbered M)).held = [] := rfl
  rw [hheld, List.append_nil, List.map_append, List.map_map]
  exact List.perm_append_comm

theorem giveUp (h : l.Keeps past given hand) (reason : String) :
    (l.giveUp reason).Keeps past given hand := by
  have hf := h.failAll (.connectFailed (l.backoff.failures.toNat + 1) reason)
  refine hf.spares (.trans ?_ (transition_spares ..))
  exact .of_eq rfl rfl rfl

theorem scheduleRetry (h : l.Keeps past given hand) (now : Nat) (reason : String) :
    (l.scheduleRetry now reason).Keeps past given hand := by
  have hl : Keeps past given hand { l with lastError := some reason } := h.of_perm rfl (.refl _)
  have hput (b : Backoff) (delay : Span) : (Loop.putOff now
      { l with lastError := some reason, backoff := b } delay).Keeps past given hand := by
    refine h.spares (.trans ?_ (putOff_spares ..))
    exact .of_eq rfl rfl rfl
  dsimp only [Loop.scheduleRetry]
  split
  · exact hput _ _
  · exact hput _ _
  · exact hput _ _
  · exact hl.giveUp reason

theorem linkLost (h : l.Keeps past given hand) (now : Nat) (reason : String) :
    (l.linkLost now reason).Keeps past given hand :=
  (h.spares (.put l.teardown_spares rfl)).scheduleRetry now reason

section Messages

variable [Message M]

/-! ### After a reconnect -/

/-- The message asked first is handed on: to those to be written again, to those that wait, or to
nobody. -/
theorem retryOne (now : Nat) (p : Pending (Numbered M)) (ps : List (Pending (Numbered M)))
    (r : Loop (Numbered M) × List (Numbered M))
    (h : r.1.Keeps past given (numbers (p :: ps) ++ r.2.map (·.number) ++ hand)) :
    (Loop.retryOne now r p).1.Keeps past given
      (numbers ps ++ (Loop.retryOne now r p).2.map (·.number) ++ hand) := by
  obtain ⟨l, resend⟩ := r
  have hn : (Message.retry p.message).1.number = p.message.number := rfl
  have ha := h.ask .retry (m := p.message) (by simp [numbers])
  have hr : ((l.ask p.message .retry).put (.retried (Message.retry p.message).1
      (Message.retry p.message).2)).Keeps past given
      ((Message.retry p.message).1.number :: (numbers ps ++ resend.map (·.number) ++ hand)) := by
    refine Keeps.put ha rfl fun n hm => ?_
    obtain rfl : p.message.number = n := by simpa [Output.number?, Output.message?, hn] using hm
    simp [numbers]
  dsimp only [Loop.retryOne]
  split
  · refine hr.of_perm rfl (List.Perm.append_right _ ?_)
    rw [List.map_append, List.append_assoc, List.append_assoc, List.append_assoc]
    refine (List.perm_middle.append_left _).trans ?_
    exact List.perm_middle
  · exact hr.await now
  · exact finish hr rfl

theorem retryMany (now : Nat) (ps : List (Pending (Numbered M)))
    (r : Loop (Numbered M) × List (Numbered M))
    (h : r.1.Keeps past given (numbers ps ++ r.2.map (·.number) ++ hand)) :
    (ps.foldl (Loop.retryOne now) r).1.Keeps past given
      ((ps.foldl (Loop.retryOne now) r).2.map (·.number) ++ hand) := by
  induction ps generalizing r with
  | nil => exact h
  | cons p ps ih => exact ih _ (retryOne now p ps r h)

theorem pushFrontMany (ms : List (Numbered M))
    (h : l.Keeps past given (ms.map (·.number) ++ hand)) :
    (ms.foldr (fun m l => l.pushFront m) l).Keeps past given hand := by
  induction ms generalizing hand with
  | nil => exact h
  | cons m ms ih => exact pushFront (ih (h.of_perm rfl (List.perm_middle.append_right _)))

theorem retryPending (h : l.Keeps past given hand) (now : Nat) :
    (l.retryPending now).Keeps past given hand := by
  have ht : Keeps past given (numbers l.receivers ++ hand) { l with receivers := [] } :=
    h.takeReceivers rfl rfl rfl
  exact pushFrontMany _ (retryMany now l.receivers (_, []) (by simpa using ht))

/-! ### Data that comes in -/

theorem follow (now : Nat) {m : Numbered M} {before after : List (Pending (Numbered M))}
    (answer : Except QueueError RecvDirective)
    (hl : l.receivers = before ++ after) (h : l.Keeps past given (m.number :: hand)) :
    (l.follow now m before after answer).Keeps past given hand := by
  have hwait : Keeps past given hand { l.ask m .timeout with
      receivers := before ++ ⟨m, deadline now m⟩ :: after } := by
    refine (h.ask .timeout (by simp)).receive (p := ⟨m, deadline now m⟩) ?_ rfl rfl
    exact List.perm_middle.trans (.of_eq (by rw [← hl]; rfl))
  dsimp only [Loop.follow]
  split
  · exact (finish (o := .done m) h rfl).spares (completed_spares _)
  · have hb := h.ask .blocking (m := m) (by simp)
    split
    · exact hb.pushFront
    · exact hb.pushBack
  · exact hwait
  · have hd := h.ask .describe (m := m) (by simp)
    exact (finish (o := .failed m _) hd rfl).spares (recycle_spares ..)

theorem route (h : l.Keeps past given hand) (now : Nat) (data : Bytes) :
    (l.route now data).Keeps past given hand := by
  have ho : (offer data l.receivers { l with received := l.received + 1 }).1.Keeps past given
      hand := by
    refine asks (l := { l with received := l.received + 1 }) (h.of_perm rfl (.refl _))
      (offer_asks ..) fun m hm => ?_
    obtain ⟨p, hp, rfl⟩ := List.mem_map.mp hm
    have : p.message.number ∈ numbers l.receivers := List.mem_map_of_mem hp
    simp [held, this]
  have hr := (offer_asks data l.receivers { l with received := l.received + 1 }).receivers
  dsimp only [Loop.route]
  split
  · next l₁ all hoff =>
    rw [hoff] at ho hr
    refine spares (l := { l₁ with receivers := all }) (ho.of_perm rfl ?_) (.put (.refl _) rfl)
    rw [held, held, hr, numbers_of_offer_none hoff]
  · next l₁ before p answer after hoff =>
    rw [hoff] at ho hr
    refine follow now answer rfl (ho.of_perm rfl ?_)
    have hp : (hand ++ (numbers before ++ p.message.number :: (numbers after ++
        l₁.buckets.all.map (·.number)))).Perm (p.message.number :: (hand ++ (numbers before ++
        (numbers after ++ l₁.buckets.all.map (·.number))))) :=
      (List.perm_middle.append_left hand).trans List.perm_middle
    rw [held, held, hr, numbers_of_offer_some hoff, numbers, List.map_append]
    simpa only [numbers, List.append_assoc, List.cons_append] using hp.symm

/-! ### Writing -/

theorem afterSend (now : Nat) (c : Traffic) {m : Numbered M} (d : SendDirective)
    (h : l.Keeps past given (m.number :: hand)) :
    (l.afterSend now c m d).Keeps past given hand := by
  cases d with
  | done => exact (finish (o := .done m) h rfl).spares (completed_spares _)
  | sendAgain => exact (h.ask .describe (by simp)).bucket rfl (Buckets.all_pushBack ..) rfl
  | recvAgain => exact h.await now

theorem sendOne (now : Nat) (c : Traffic) {m : Numbered M}
    (h : l.Keeps past given (m.number :: hand)) : (l.sendOne now c m).2.Keeps past given hand := by
  have ha := h.ask .send (m := m) (by simp)
  dsimp only [Loop.sendOne]
  split
  · next m' e hs =>
    have hm : m.number = m'.number := congrArg (·.1.number) hs
    rw [hm] at ha
    have hd := ha.ask .describe (m := m') (by simp)
    exact finish (o := .failed m' e) hd rfl
  · next m' frames d hs =>
    have hm : m.number = m'.number := congrArg (·.1.number) hs
    rw [hm] at ha
    have hw := ha.spares (write_spares (l.ask m .send) frames)
    split
    · next e l₁ hwrite =>
      rw [hwrite] at hw
      have hb : Keeps past given hand { l₁ with buckets := l₁.buckets.pushFront c m' } :=
        hw.bucket rfl (Buckets.all_pushFront ..) rfl
      exact hb.linkLost now e.text
    · next l₁ hwrite =>
      rw [hwrite] at hw
      have hb : Keeps past given (m'.number :: hand) { l₁ with sent := l₁.sent + 1 } :=
        hw.of_perm rfl (.refl _)
      exact hb.afterSend now c d

theorem round (h : l.Keeps past given hand) (now : Nat) :
    (l.round now).2.Keeps past given hand := by
  have ha : (anyBlocking l.receivers l).2.Keeps past given hand := by
    refine h.asks (anyBlocking_asks ..) fun m hm => ?_
    obtain ⟨p, hp, rfl⟩ := List.mem_map.mp hm
    have hn : p.message.number ∈ numbers l.receivers := List.mem_map_of_mem hp
    simp [held, hn]
  unfold Loop.round
  split
  · exact h
  · split
    · next l₁ hb => simpa only [hb] using ha
    · next l₁ hb =>
      rw [hb] at ha
      split
      · exact ha
      · split
        · exact ha
        · next c m b hpop =>
          refine sendOne now c (ha.of_perm rfl ?_)
          have hp := (Buckets.all_pushFront b c m).map (·.number)
          rw [← Buckets.pushFront_of_pop hpop] at hp
          have hq := (hp.append_left (hand ++ numbers l₁.receivers)).trans List.perm_middle
          simpa only [held, List.append_assoc, List.cons_append] using hq.symm

/-! ### Inputs -/

theorem acceptMany (backlog : List (Numbered M))
    (h : l.Keeps past given (backlog.map (·.number) ++ hand)) :
    (backlog.foldl Loop.accept l).Keeps past given hand := by
  induction backlog generalizing l with
  | nil => exact h
  | cons m ms ih => exact ih (accept h)

theorem gather (backlog : List (Numbered M))
    (h : l.Keeps past given (backlog.map (·.number) ++ hand)) :
    (l.gather backlog).Keeps past given hand :=
  (acceptMany backlog h).spares (maybeConnect_spares _)

theorem connected (h : l.Keeps past given hand) (now generation : Nat) :
    (l.onControl now (.connected generation)).Keeps past given hand := by
  dsimp only [Loop.onControl]
  split
  · exact h.spares (.put (.refl l) rfl)
  · exact (h.spares (opened_spares ..)).retryPending now

theorem onControl (h : l.Keeps past given hand) (now : Nat) (item : Control) :
    (l.onControl now item).Keeps past given hand := by
  cases item with
  | incoming generation data =>
    dsimp only [Loop.onControl]
    split
    · exact h
    · exact h.route now data
  | lost generation reason =>
    dsimp only [Loop.onControl]
    split
    · exact h.linkLost now reason
    · exact h
  | connected generation => exact h.connected now generation
  | connectFailed generation reason =>
    dsimp only [Loop.onControl]
    split
    · refine scheduleRetry (h.spares ?_) now reason
      exact .put (.of_eq rfl rfl rfl) rfl
    · exact h
  | reopen =>
    dsimp only [Loop.onControl]
    split
    · exact h.spares (recycle_spares ..)
    · exact h
  | close => exact h

theorem failLate (p : Pending (Numbered M))
    (h : l.Keeps past given (p.message.number :: hand)) :
    (l.failLate p).Keeps past given hand := by
  have hd := (h.ask .describe (m := p.message) (by simp)).spares
    (.put (o := .notice (.timeout (Message.describe p.message))) (.refl _) rfl)
  exact finish (o := .failed p.message .timeout) hd rfl

theorem failLateMany (ps : List (Pending (Numbered M)))
    (h : l.Keeps past given (numbers ps ++ hand)) :
    (ps.foldl Loop.failLate l).Keeps past given hand := by
  induction ps generalizing l with
  | nil => exact h
  | cons p ps ih => exact ih (failLate p h)

theorem expire (h : l.Keeps past given hand) (now : Nat) :
    (l.expire now).Keeps past given hand := by
  dsimp only [Loop.expire]
  split
  · exact h
  · have hf : ((l.receivers.filter (isLate now)).foldl Loop.failLate { l with
        receivers := l.receivers.filter fun p => !isLate now p }).Keeps past given hand := by
      refine failLateMany _ (h.of_perm rfl ?_)
      have hp := (List.filter_append_perm (isLate now) l.receivers).map (·.message.number)
      have hq := (hp.append_left hand).append_right (l.buckets.all.map (·.number))
      refine List.Perm.trans ?_ (by simpa only [held, numbers, List.append_assoc] using hq)
      simp only [held, numbers, List.map_append, ← List.append_assoc]
      exact (List.perm_append_comm.append_right _).append_right _
    split
    · exact hf.spares (recycle_spares ..)
    · exact hf

theorem onTimer (h : l.Keeps past given hand) (now : Nat) :
    (l.onTimer now).Keeps past given hand := by
  refine expire ?_ now
  split
  · refine h.spares (.trans ?_ (startConnect_spares _))
    exact .of_eq rfl rfl rfl
  · exact h

/-- The loop handles an input; a message that arrives comes from the hand. -/
theorem handle (now : Nat) (input : Input (Numbered M))
    (h : l.Keeps past given (input.taken ++ hand)) :
    (l.handle now input).Keeps past given hand := by
  cases input with
  | control item => exact onControl h now item
  | traffic m => exact accept h
  | timer => exact onTimer h now
  | abandoned => exact h

/-- A loop that stops is left with nothing. -/
theorem shutdown (backlog : List (Numbered M))
    (h : l.Keeps past given (backlog.map (·.number) ++ hand)) :
    (l.shutdown backlog).Keeps past given hand ∧ (l.shutdown backlog).held = [] := by
  have hf := (acceptMany backlog (h.spares l.abort_spares)).failAll .closed
  have hh := (hangUp_spares ((backlog.foldl Loop.accept l.abort).failAll .closed)).held
  exact ⟨hf.spares (hangUp_spares _), hh.trans (failAll_held ..)⟩

end Messages

end Keeps

end Loop

end Hearth.Link

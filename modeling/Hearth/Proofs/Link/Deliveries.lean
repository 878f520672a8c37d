import Hearth.Proofs.Link.Endings
import Hearth.Proofs.Link.Writings

/-!
# How often a line is written

A line that expects a reply may be written again after every lost link, as often as it has retries
left. The loop takes a retry off when it asks a line what to do on a new transport, and writes it
some time later, perhaps over and over until its frame gets through. So what a line has been written
and what it may still be written never add up to more than was allowed at first.

## Main definitions

* `writingsOf`, `carrier?` : how often a message was written, and over which transport last.
* `Line.Embedded` : lines among the messages of a queue.
* `Loop.Tracks` : a line is written no more often than it may.

## Main results

* `Loop.Deed.tracks` : every deed keeps to that.
-/

namespace Hearth.Link

variable {M : Type} [Message M]

/-- The times that a message was written in a history, the last one first, each with the message as
it was then and the transport that took it. -/
def writingsOf (n : Nat) (past : List (Output (Numbered M))) : List (Numbered M × Option Nat) :=
  (writings past).filter fun w => w.1.number == n

/-- The transport over which a message was written last. -/
def carrier? (n : Nat) (past : List (Output (Numbered M))) : Option Nat :=
  (writingsOf n past).head?.bind (·.2)

theorem writingsOf_append {n : Nat} {es : List (Output (Numbered M))}
    (hes : ∀ e ∈ es, e.isWriting = false) (past : List (Output (Numbered M))) :
    writingsOf n (es ++ past) = writingsOf n past := by
  rw [writingsOf, writings_append hes, writingsOf]

/-- How often a line may be written, from now on. -/
def Line.allowance (line : Line) : Nat := if line.expectsReply then line.retries + 1 else 1

theorem Line.allowance_pos (line : Line) : 0 < line.allowance := by
  unfold allowance
  split <;> omega

/-- Lines are messages of a queue, and answer as lines do. -/
structure Line.Embedded (wrap : Line → M) : Prop where
  send : ∀ line, Message.send (wrap line) = (wrap (Message.send line).1, (Message.send line).2)
  recv : ∀ line data, Message.recv (wrap line) data =
    (wrap (Message.recv line data).1, (Message.recv line data).2)
  retry : ∀ line, Message.retry (wrap line) = (wrap (Message.retry line).1, (Message.retry line).2)

namespace Line.Embedded

variable {wrap : Line → M} {m : Numbered M} {line : Line}

/-- A line stays as it is when it is written. -/
theorem send_eq (h : Line.Embedded wrap) (hm : m.body = wrap line) {frames : List Bytes}
    {d : SendDirective} (hs : (Message.send m).2 = .ok (frames, d)) :
    (Message.send m).1 = m ∧ d = if line.expectsReply then .recvAgain else .done := by
  have hsend : Message.send m =
      (⟨m.number, wrap (Message.send line).1⟩, (Message.send line).2) := by
    change ((⟨m.number, (Message.send m.body).1⟩ : Numbered M), (Message.send m.body).2) = _
    rw [hm, h.send]
  rw [hsend] at hs ⊢
  simp only [Message.send] at hs ⊢
  split at hs
  · cases hs
  · next hplain =>
    obtain ⟨-, rfl⟩ := Prod.mk.inj (Except.ok.inj hs)
    rw [if_neg hplain, ← hm]
    exact ⟨rfl, rfl⟩

/-- A line takes the first data that it is offered for its reply. -/
theorem recv_eq (h : Line.Embedded wrap) (hm : m.body = wrap line) (data : Bytes) :
    Message.recv m data =
      (⟨m.number, wrap { line with reply := some (Text.decodeLossy data) }⟩, .ok .mine) := by
  change ((⟨m.number, (Message.recv m.body data).1⟩ : Numbered M), (Message.recv m.body data).2) = _
  rw [hm, h.recv]
  rfl

/-- A line is written again on a new transport if it has a retry left. -/
theorem retry_cases (h : Line.Embedded wrap) (hm : m.body = wrap line) :
    (Message.retry m).2 = .abandon ∨ ∃ k, line.retries = k + 1 ∧
      Message.retry m = (⟨m.number, wrap { line with retries := k }⟩, .sendAgain) := by
  have hretry : Message.retry m =
      (⟨m.number, wrap (Message.retry line).1⟩, (Message.retry line).2) := by
    change ((⟨m.number, (Message.retry m.body).1⟩ : Numbered M), (Message.retry m.body).2) = _
    rw [hm, h.retry]
  rw [hretry]
  cases hk : line.retries with
  | zero => exact .inl (by simp [Message.retry, hk])
  | succ k => exact .inr ⟨k, rfl, by simp [Message.retry, hk]⟩

end Line.Embedded

namespace Loop

/-- A line that is still to be written, of whose retries some may be used up: with what was spent it
stays within its allowance. -/
def Listed (wrap : Line → M) (line : Line) (most spent : Nat) (m : Numbered M) : Prop :=
  ∃ k, m.body = wrap { line with retries := k } ∧
    spent + Line.allowance { line with retries := k } ≤ most

/-- A line that waits: it was written, and the transport that took it is the one that is open, if
any is. With what was spent it stays within its allowance. -/
def Expects (wrap : Line → M) (n : Nat) (line : Line) (most : Nat)
    (past : List (Output (Numbered M))) (l : Loop (Numbered M)) (m : Numbered M) : Prop :=
  ∃ k, m.body = wrap { line with retries := k } ∧ line.expectsReply = true ∧
    writingsOf n (l.log ++ past) ≠ [] ∧ (writingsOf n (l.log ++ past)).length + k ≤ most ∧
    (l.state = .connected → carrier? n (l.log ++ past) = some l.generation)

/-- The line with a number is written no more often than `most` times, and done only after it was
written. -/
structure Tracks (wrap : Line → M) (n : Nat) (line : Line) (most : Nat)
    (past : List (Output (Numbered M))) (l : Loop (Numbered M)) : Prop where
  listed : ∀ m ∈ l.buckets.all, m.number = n →
    Listed wrap line most (writingsOf n (l.log ++ past)).length m
  waits : ∀ p ∈ l.receivers, p.message.number = n → l.Expects wrap n line most past p.message
  bound : (writingsOf n (l.log ++ past)).length ≤ most
  done : ∀ m earlier, .done m :: earlier <:+ l.log ++ past → m.number = n →
    writingsOf n earlier ≠ []

variable {wrap : Line → M} {n : Nat} {line : Line} {most : Nat}
  {past : List (Output (Numbered M))} {now : Nat} {l l' : Loop (Numbered M)}

/-- The line is not written, and it is where it was, or is listed anew. -/
theorem Tracks.extend (h : l.Tracks wrap n line most past) (es : List (Output (Numbered M)))
    (hlog : l'.log = es ++ l.log)
    (hes : writingsOf n (es ++ (l.log ++ past)) = writingsOf n (l.log ++ past))
    (hdone : ∀ m, m.number = n → .done m ∉ es)
    (hlisted : ∀ m ∈ l'.buckets.all, m.number = n → m ∈ l.buckets.all ∨
      Listed wrap line most (writingsOf n (l.log ++ past)).length m)
    (hwaits : ∀ p ∈ l'.receivers, p.message.number = n → p ∈ l.receivers ∧
      (l'.state = .connected → l.state = .connected ∧ l'.generation = l.generation)) :
    l'.Tracks wrap n line most past := by
  have hpast : l'.log ++ past = es ++ (l.log ++ past) := by rw [hlog, List.append_assoc]
  constructor
  case listed =>
    intro m hm hn
    rw [hpast, hes]
    exact (hlisted m hm hn).elim (fun hm => h.listed m hm hn) id
  case waits =>
    intro p hp hn
    obtain ⟨hp, hst⟩ := hwaits p hp hn
    obtain ⟨k, hbody, hreply, hsome, hbound, hcarrier⟩ := h.waits p hp hn
    rw [Expects, carrier?, hpast, hes]
    refine ⟨k, hbody, hreply, hsome, hbound, fun hs => ?_⟩
    obtain ⟨hs, hg⟩ := hst hs
    rw [hg]
    exact hcarrier hs
  case bound =>
    rw [hpast, hes]
    exact h.bound
  case done =>
    intro m earlier hs hn
    rw [hpast] at hs
    exact h.done m earlier (suffix_of_not_mem hs (hdone m hn)) hn

/-- More may be allowed. -/
theorem Tracks.mono (h : l.Tracks wrap n line most past) {most' : Nat} (hle : most ≤ most') :
    l.Tracks wrap n line most' past where
  listed m hm hn := (h.listed m hm hn).imp fun _ hk => ⟨hk.1, Nat.le_trans hk.2 hle⟩
  waits p hp hn := (h.waits p hp hn).imp fun _ hk =>
    ⟨hk.1, hk.2.1, hk.2.2.1, Nat.le_trans hk.2.2.2.1 hle, hk.2.2.2.2⟩
  bound := Nat.le_trans h.bound hle
  done := h.done

/-- The log of a loop becomes part of the past. -/
theorem Tracks.drain (h : l.Tracks wrap n line most past) :
    Tracks wrap n line most (l.log ++ past) { l with log := [] } :=
  ⟨h.listed, h.waits, h.bound, h.done⟩

/-- Nothing is written or done. -/
theorem Tracks.rest (h : l.Tracks wrap n line most past) (es : List (Output (Numbered M)))
    (hlog : l'.log = es ++ l.log)
    (hes : ∀ e ∈ es, e.isWriting = false ∧ ∀ m, m.number = n → e ≠ .done m)
    (hlisted : ∀ m ∈ l'.buckets.all, m.number = n → m ∈ l.buckets.all)
    (hwaits : ∀ p ∈ l'.receivers, p.message.number = n → p ∈ l.receivers)
    (hst : (l'.state, l'.generation) = (l.state, l.generation)) :
    l'.Tracks wrap n line most past := by
  obtain ⟨hs, hg⟩ := Prod.mk.inj hst
  exact h.extend es hlog (writingsOf_append (fun e he => (hes e he).1) _)
    (fun m hn hm => (hes _ hm).2 m hn rfl) (fun m hm hn => .inl (hlisted m hm hn))
    fun p hp hn => ⟨hwaits p hp hn, fun hc => ⟨hs ▸ hc, hg⟩⟩

theorem Tracks.settles {taken : List (Numbered M)} (h : l.Tracks wrap n line most past)
    (hs : l.Settles taken l') (ht : ∀ m ∈ taken, m.number = n →
      Listed wrap line most (writingsOf n (l.log ++ past)).length m) :
    l'.Tracks wrap n line most past := by
  obtain ⟨es, hlog, hes⟩ := hs.log
  refine h.extend es hlog (writingsOf_append (fun e he => ?_) _) (fun m _ hm => ?_)
    (fun m hm hn => (hs.buckets m hm).imp_right fun hm => ht m hm hn)
    fun p hp _ => ⟨hs.receivers hp, hs.connected⟩
  · exact Output.not_isWriting_of_isQuiet (hes e he)
  · exact absurd (hes _ hm) (by simp [Output.isQuiet])

theorem Tracks.publish (h : l.Tracks wrap n line most past) :
    l.publish.Tracks wrap n line most past :=
  h.rest [.published l.snapshot] rfl (by simp [Output.isWriting]) (fun _ hm _ => hm)
    (fun _ hp _ => hp) rfl

/-- A message is completed; if it is the line, it was written before. -/
theorem Tracks.completed (h : l.Tracks wrap n line most past) (m : Numbered M)
    (hm : m.number = n → writingsOf n (l.log ++ past) ≠ []) :
    (l.put (.done m)).completed.Tracks wrap n line most past := by
  have hw : writingsOf n (.done m :: (l.log ++ past)) = writingsOf n (l.log ++ past) := by
    rw [writingsOf, writings_cons rfl, writingsOf]
  have hcounted : (l.put (.done m)).counted.Tracks wrap n line most past := by
    constructor
    case listed =>
      intro m' hm' hn
      change Listed wrap line most (writingsOf n (.done m :: (l.log ++ past))).length m'
      rw [hw]
      exact h.listed m' hm' hn
    case waits =>
      intro p hp hn
      have hlog : (l.put (.done m)).counted.log ++ past = .done m :: (l.log ++ past) := rfl
      rw [Expects, carrier?, hlog, hw]
      exact h.waits p hp hn
    case bound =>
      change (writingsOf n (.done m :: (l.log ++ past))).length ≤ most
      rw [hw]
      exact h.bound
    case done =>
      intro m' earlier hs hn
      rcases List.suffix_cons_iff.mp hs with heq | hs
      · obtain ⟨heq, hearlier⟩ := List.cons.inj heq
        obtain rfl : m' = m := Output.done.inj heq
        rw [hearlier]
        exact hm hn
      · exact h.done m' earlier hs hn
  rcases completed_cases (l.put (.done m)) with ⟨heq, -⟩ | ⟨most', -, hs, -, heq⟩
  · rw [heq]
    exact hcounted
  · have hset : Settles [] (l.put (.done m)).counted _ :=
      .recycle (by exact hs) "message limit reached"
    rw [heq]
    exact hcounted.settles hset (by simp)

/-- Another message does what it answered to data that it took. -/
theorem Tracks.follow (h : l.Tracks wrap n line most past) (hs : l.state = .connected)
    {m : Numbered M} (hm : m.number ≠ n) {before after : List (Pending (Numbered M))}
    (hr : l.receivers = before ++ after) (answer : Except QueueError RecvDirective) :
    (l.follow now m before after answer).Tracks wrap n line most past := by
  dsimp only [Loop.follow]
  split
  · exact h.completed m fun hn => absurd hn hm
  · split
    · refine h.rest [.asked m .traffic, .asked m .blocking] rfl (by simp [Output.isWriting])
        (fun m' hm' hn => ?_) (fun _ hp _ => hp) rfl
      rcases List.mem_cons.mp ((Buckets.all_pushFront ..).mem_iff.mp hm') with rfl | hm'
      · exact absurd hn hm
      · exact hm'
    · refine h.rest [.asked m .traffic, .asked m .blocking] rfl (by simp [Output.isWriting])
        (fun m' hm' hn => ?_) (fun _ hp _ => hp) rfl
      rcases List.mem_cons.mp ((Buckets.all_pushBack ..).mem_iff.mp hm') with rfl | hm'
      · exact absurd hn hm
      · exact hm'
  · refine h.rest [.asked m .timeout] rfl (by simp [Output.isWriting]) (fun _ hm' _ => hm')
      (fun p hp hn => ?_) rfl
    rw [hr]
    rcases List.mem_append.mp hp with hp | hp
    · exact List.mem_append_left _ hp
    · rcases List.mem_cons.mp hp with rfl | hp
      · exact absurd hn hm
      · exact List.mem_append_right _ hp
  · next e =>
    have hfail : ((l.ask m .describe).put (.failed m e)).Tracks wrap n line most past :=
      h.rest [.failed m e, .asked m .describe] rfl (by simp [Output.isWriting]) (fun _ hm' _ => hm')
        (fun _ hp _ => hp) rfl
    have hset : Settles [] ((l.ask m .describe).put (.failed m e)) _ :=
      .recycle (by exact hs) "receiver error"
    exact hfail.settles hset (by simp)

/-- Another message does what it answered when it was written. -/
theorem Tracks.afterSend (h : l.Tracks wrap n line most past) {m : Numbered M}
    (hm : m.number ≠ n) (k : Traffic) (d : SendDirective) :
    (l.afterSend now k m d).Tracks wrap n line most past := by
  cases d with
  | done => exact h.completed m fun hn => absurd hn hm
  | sendAgain =>
    refine h.rest [.asked m .describe] rfl (by simp [Output.isWriting]) (fun m' hm' hn => ?_)
      (fun _ hp _ => hp) rfl
    rcases List.mem_cons.mp ((Buckets.all_pushBack ..).mem_iff.mp hm') with rfl | hm'
    · exact absurd hn hm
    · exact hm'
  | recvAgain =>
    refine h.rest [.asked m .timeout] rfl (by simp [Output.isWriting]) (fun _ hm' _ => hm')
      (fun p hp hn => ?_) rfl
    rcases List.mem_append.mp hp with hp | hp
    · exact hp
    · obtain rfl := List.mem_singleton.mp hp
      exact absurd hn hm

/-- A line that waits is written again on a new transport, with one retry less, or it is
abandoned. -/
theorem Tracks.reconnects (h : l.Tracks wrap n line most past) (hw : Line.Embedded wrap)
    (hs : l.state = .connecting) (now : Nat) :
    ((l.opened l.generation).retryPending now).Tracks wrap n line most past := by
  obtain ⟨es, hlog, hes⟩ := reconnects_log hs now
  have hretried (p : Pending (Numbered M)) (hp : p ∈ l.receivers) (hn : p.message.number = n) :
      (Message.retry p.message).2 ≠ .recvAgain ∧
        ((Message.retry p.message).2 = .sendAgain → Listed wrap line most
          (writingsOf n (l.log ++ past)).length (Message.retry p.message).1) := by
    obtain ⟨k, hbody, hreply, -, hbound, -⟩ := h.waits p hp hn
    rcases hw.retry_cases hbody with habandon | ⟨k', rfl, hagain⟩
    · rw [habandon]
      exact ⟨nofun, nofun⟩
    · rw [hagain]
      refine ⟨nofun, fun _ => ⟨k', rfl, ?_⟩⟩
      rw [Line.allowance, if_pos hreply]
      exact hbound
  refine h.extend es hlog (writingsOf_append (fun e he => ?_) _) (fun m hn hm => ?_)
    (fun m hm hn => ?_) fun p hp hn => ?_
  · rcases hes e he with ⟨m, rfl⟩ | ⟨p, -, he⟩ | rfl
    · rfl
    · rcases mem_recalled he with rfl | rfl | rfl | rfl <;> rfl
    · rfl
  · rcases hes _ hm with ⟨m', h⟩ | ⟨p, -, h⟩ | h
    · cases h
    · rcases mem_recalled h with h | h | h | h <;> cases h
    · cases h
  · obtain ⟨c, hm⟩ := Buckets.mem_all.mp hm
    rw [opened_eq hs, retryPending_get] at hm
    rcases List.mem_append.mp hm with hm | hm
    · obtain ⟨p, hp, hm⟩ := List.mem_filterMap.mp (List.mem_of_mem_filter hm)
      split at hm
      · next m' heq =>
        obtain rfl := Option.some.inj hm
        have hnumber : m'.number = p.message.number := congrArg (·.1.number) heq.symm
        have hlisted := (hretried p hp (hnumber.symm.trans hn)).2
        rw [heq] at hlisted
        exact .inr (hlisted rfl)
      · cases hm
    · exact .inl (Buckets.mem_all.mpr ⟨c, hm⟩)
  · rw [opened_eq hs, retryPending_receivers] at hp
    obtain ⟨q, hq, hp⟩ := List.mem_filterMap.mp hp
    split at hp
    · next m' heq =>
      obtain rfl := Option.some.inj hp
      have hnumber : m'.number = q.message.number := congrArg (·.1.number) heq.symm
      exact absurd (congrArg Prod.snd heq) (hretried q hq (hnumber.symm.trans hn)).1
    · cases hp

/-- The line takes all data that it is offered. -/
theorem Tracks.not_declines (h : l.Tracks wrap n line most past) (hw : Line.Embedded wrap)
    {p : Pending (Numbered M)} (hp : p ∈ l.receivers) (hn : p.message.number = n) (data : Bytes) :
    ¬ p.Declines data := by
  intro declined
  obtain ⟨k, hbody, -⟩ := h.waits p hp hn
  have hmine := congrArg Prod.snd (hw.recv_eq hbody data)
  cases declined.symm.trans hmine

/-- Data is taken by the line, or by another message. -/
theorem Tracks.takes (h : l.Tracks wrap n line most past) (hw : Line.Embedded wrap)
    (hs : l.state = .connected) {before after : List (Pending (Numbered M))}
    {q : Pending (Numbered M)} {data : Bytes} (waits : l.receivers = before ++ q :: after)
    (declined : ∀ p ∈ before, p.Declines data) : (Loop.follow now { l with
      received := l.received + 1
      receivers := before.map (Pending.heard data) ++ after
      log := offered data (before ++ [q]) ++ l.log } (q.heard data).message
        (before.map (Pending.heard data)) after (Message.recv q.message data).2).Tracks
          wrap n line most past := by
  have hplain (e : Output (Numbered M)) (he : e ∈ offered data (before ++ [q])) :
      e.isWriting = false ∧ ∀ m, m.number = n → e ≠ .done m := by
    obtain ⟨p, -, rfl⟩ := mem_offered he
    exact ⟨rfl, nofun⟩
  have hoffered : Tracks wrap n line most past { l with
      received := l.received + 1
      receivers := before.map (Pending.heard data) ++ after
      log := offered data (before ++ [q]) ++ l.log } := by
    refine h.rest (offered data (before ++ [q])) rfl hplain (fun _ hm _ => hm) (fun p hp hn => ?_)
      rfl
    rw [waits]
    rcases List.mem_append.mp hp with hp | hp
    · obtain ⟨p, hb, rfl⟩ := List.mem_map.mp hp
      have hmem : p ∈ l.receivers := waits ▸ List.mem_append_left _ hb
      exact absurd (declined p hb) (h.not_declines hw hmem hn data)
    · exact List.mem_append_right _ (List.mem_cons_of_mem _ hp)
  by_cases hq : q.message.number = n
  · obtain ⟨k, hbody, -, hsome, -⟩ := h.waits q (waits ▸ by simp) hq
    have hmine := congrArg Prod.snd (hw.recv_eq hbody data)
    rw [hmine]
    refine hoffered.completed _ fun _ => ?_
    rw [List.append_assoc, writingsOf_append fun e he => (hplain e he).1]
    exact hsome
  · have hother : (q.heard data).message.number ≠ n := hq
    exact hoffered.follow hs hother rfl _

/-- The line is taken out of its list and written. -/
theorem Tracks.write (h : l.Tracks wrap n line most past) {es : List (Output (Numbered M))}
    {w : Numbered M × Option Nat} (hlog : l'.log ++ past = es ++ (l.log ++ past))
    (hes : writingsOf n (es ++ (l.log ++ past)) = w :: writingsOf n (l.log ++ past))
    (hdone : ∀ m, .done m ∉ es) (hspent : (writingsOf n (l.log ++ past)).length + 1 ≤ most)
    (hlisted : ∀ m ∈ l'.buckets.all, m.number ≠ n)
    (hwaits : ∀ p ∈ l'.receivers, p.message.number ≠ n) : l'.Tracks wrap n line most past := by
  constructor
  case listed => exact fun m hm hn => absurd hn (hlisted m hm)
  case waits => exact fun p hp hn => absurd hn (hwaits p hp)
  case bound =>
    rw [hlog, hes]
    exact hspent
  case done =>
    intro m earlier hs hn
    rw [hlog] at hs
    exact h.done m earlier (suffix_of_not_mem hs (hdone m)) hn

/-- The line waits for its reply. -/
theorem Tracks.await (h : l.Tracks wrap n line most past) {m : Numbered M}
    (hm : l.Expects wrap n line most past m) : (l.await now m).Tracks wrap n line most past := by
  have hlog : (l.await now m).log ++ past = [.asked m .timeout] ++ (l.log ++ past) := rfl
  have hasked : writingsOf n ((l.await now m).log ++ past) = writingsOf n (l.log ++ past) := by
    rw [hlog]
    exact writingsOf_append (by simp [Output.isWriting]) _
  constructor
  case listed =>
    intro m' hm' hn
    rw [hasked]
    exact h.listed m' hm' hn
  case waits =>
    intro p hp hn
    rw [Expects, carrier?, hasked]
    rcases List.mem_append.mp hp with hp | hp
    · exact h.waits p hp hn
    · obtain rfl := List.mem_singleton.mp hp
      exact hm
  case bound =>
    rw [hasked]
    exact h.bound
  case done =>
    intro m' earlier hs hn
    rw [hlog] at hs
    exact h.done m' earlier (suffix_of_not_mem hs (by simp)) hn

omit [Message M] in
theorem not_done_of_mem_through {g : Nat} {m m' : Numbered M} {frames : List Bytes} :
    .done m ∉ through g m' frames := by
  intro hm
  rcases mem_through hm with ⟨frame, -, heq⟩ | heq
  · cases heq
  · cases heq

/-- The line is written: it waits, or it is done. -/
theorem Tracks.writes (h : l.Tracks wrap n line most past) (hw : Line.Embedded wrap)
    {c : Traffic} {m : Numbered M} {b : Buckets (Numbered M)} {es : List (Output (Numbered M))}
    (picked : l.Picks es c m b) (hd : l.held.Nodup) (hm : m.number = n) {frames : List Bytes}
    {d : SendDirective} (encoded : (Message.send m).2 = .ok (frames, d))
    (ho : openTransport (l.log ++ past) = some l.generation) (wire : List (Option QueueError)) :
    (Loop.afterSend now { l with
      buckets := b, wire, sent := l.sent + 1
      log := through l.generation m frames ++ (es ++ l.log) } c (Message.send m).1 d).Tracks
        wrap n line most past := by
  have hasked (e : Output (Numbered M)) (he : e ∈ es) : e.isWriting = false ∧ e.isMove = false := by
    obtain ⟨m, rfl⟩ := picked.asked e he
    exact ⟨rfl, rfl⟩
  obtain ⟨hwaits, hleft⟩ := picked.number_ne hd
  obtain ⟨k, hbody, hspent⟩ := h.listed m (picked.mem_all.mpr (.inl rfl)) hm
  obtain ⟨hsend, rfl⟩ := hw.send_eq hbody encoded
  have hwritten : writingsOf n ((through l.generation m frames ++ es) ++ (l.log ++ past)) =
      (m, some l.generation) :: writingsOf n (l.log ++ past) := by
    rw [List.append_assoc, writingsOf, writings_through _ encoded,
      writings_append fun e he => (hasked e he).1, openTransport_append fun e he => (hasked e he).2,
      ho, List.filter_cons_of_pos (by simpa using hm)]
    rfl
  have hlog : (through l.generation m frames ++ (es ++ l.log)) ++ past =
      (through l.generation m frames ++ es) ++ (l.log ++ past) := by simp only [List.append_assoc]
  have hone := Line.allowance_pos { line with retries := k }
  have hmid : Tracks wrap n line most past { l with
      buckets := b, wire, sent := l.sent + 1
      log := through l.generation m frames ++ (es ++ l.log) } := by
    refine h.write hlog hwritten (fun m' hm' => ?_) (by omega) (fun m' hm' => ?_) fun p hp => ?_
    · rcases List.mem_append.mp hm' with hm' | hm'
      · exact not_done_of_mem_through hm'
      · obtain ⟨m'', heq⟩ := picked.asked _ hm'
        cases heq
    · exact hm ▸ hleft m' hm'
    · exact (hm ▸ hwaits p hp).symm
  rw [hsend]
  split
  · next hreply =>
    refine hmid.await ⟨k, hbody, hreply, ?_⟩
    rw [carrier?, hlog, hwritten]
    rw [Line.allowance, if_pos hreply] at hspent
    dsimp only at hspent
    refine ⟨List.cons_ne_nil _ _, ?_, fun _ => rfl⟩
    rw [List.length_cons]
    omega
  · refine hmid.completed m fun _ => ?_
    rw [hlog, hwritten]
    exact List.cons_ne_nil _ _

/-- Before a message is written, those that wait are asked whether they are blocking. -/
theorem Tracks.picked (h : l.Tracks wrap n line most past) {es : List (Output (Numbered M))}
    {c : Traffic} {m : Numbered M} {b : Buckets (Numbered M)} (hp : l.Picks es c m b) :
    Tracks wrap n line most past { l with log := es ++ l.log } := by
  refine h.rest es rfl (fun e he => ?_) (fun _ hm _ => hm) (fun _ hp _ => hp) rfl
  obtain ⟨m, rfl⟩ := hp.asked e he
  exact ⟨rfl, nofun⟩

/-- Writing a message breaks off; if it is the line, it is listed again. -/
theorem Tracks.breaks (h : l.Tracks wrap n line most past) (hw : Line.Embedded wrap)
    {c : Traffic} {m : Numbered M} {b : Buckets (Numbered M)} {es : List (Output (Numbered M))}
    (picked : l.Picks es c m b) {before after : List Bytes} {frame : Bytes} {d : SendDirective}
    (encoded : (Message.send m).2 = .ok (before ++ frame :: after, d))
    (wire : List (Option QueueError)) : Tracks wrap n line most past { l with
      buckets := b.pushFront c (Message.send m).1, wire
      log := .writeFailed l.generation frame :: through l.generation m before ++
        (es ++ l.log) } := by
  refine (h.picked picked).extend (.writeFailed l.generation frame ::
    through l.generation m before) rfl ?_ (fun m' _ hm' => ?_) (fun m' hm' hn => .inl ?_)
    fun p hp _ => ⟨hp, fun hs => ⟨hs, rfl⟩⟩
  · rw [writingsOf, List.cons_append, writings_cons rfl, writings_partial _ encoded]
    rfl
  · rcases List.mem_cons.mp hm' with heq | hm'
    · cases heq
    · exact not_done_of_mem_through hm'
  · rcases List.mem_cons.mp ((Buckets.all_pushFront ..).mem_iff.mp hm') with rfl | hm'
    · have hm := picked.mem_all.mpr (.inl rfl)
      obtain ⟨k, hbody, -⟩ := h.listed m hm hn
      rw [(hw.send_eq hbody encoded).1]
      exact hm
    · exact picked.mem_all.mpr (.inr hm')

/-- Another message is written. -/
theorem Tracks.writes_other (h : l.Tracks wrap n line most past) {c : Traffic} {m : Numbered M}
    {b : Buckets (Numbered M)} {es : List (Output (Numbered M))} (picked : l.Picks es c m b)
    (hm : m.number ≠ n) {frames : List Bytes} {d : SendDirective}
    (encoded : (Message.send m).2 = .ok (frames, d)) (wire : List (Option QueueError)) :
    (Loop.afterSend now { l with
      buckets := b, wire, sent := l.sent + 1
      log := through l.generation m frames ++ (es ++ l.log) } c (Message.send m).1 d).Tracks
        wrap n line most past := by
  have hwritten : Tracks wrap n line most past { l with
      buckets := b, wire, sent := l.sent + 1
      log := through l.generation m frames ++ (es ++ l.log) } := by
    refine (h.picked picked).extend (through l.generation m frames) rfl ?_
      (fun _ _ => not_done_of_mem_through)
      (fun m' hm' _ => .inl (picked.mem_all.mpr (.inr hm'))) fun p hp _ => ⟨hp, fun hs => ⟨hs, rfl⟩⟩
    rw [writingsOf, writings_through _ encoded, List.filter_cons_of_neg (by simpa using hm)]
    rfl
  have hother : (Message.send m).1.number ≠ n := hm
  exact hwritten.afterSend hother c d

/-- Every deed writes a line no more often than it may. -/
theorem Deed.tracks {taken : List (Numbered M)} {heard : Option Bytes}
    (hd : Deed now l taken heard l') (h : l.Tracks wrap n line most past)
    (hw : Line.Embedded wrap) (hnodup : l.held.Nodup)
    (ho : l.state = .connected → openTransport (l.log ++ past) = some l.generation)
    (ht : ∀ m ∈ taken, m.number = n →
      Listed wrap line most (writingsOf n (l.log ++ past)).length m) :
    l'.Tracks wrap n line most past := by
  cases hd with
  | settles hs => exact h.settles hs ht
  | reconnects hs => exact h.reconnects hw hs now
  | declines data hs declined =>
    refine h.rest (.notice (.unrouted data) :: offered data l.receivers) rfl (fun e he => ?_)
      (fun _ hm _ => hm) (fun p hp hn => ?_) rfl
    · rcases List.mem_cons.mp he with rfl | he
      · exact ⟨rfl, nofun⟩
      · obtain ⟨p, -, rfl⟩ := mem_offered he
        exact ⟨rfl, nofun⟩
    · obtain ⟨q, hq, rfl⟩ := List.mem_map.mp hp
      exact absurd (declined q hq) (h.not_declines hw hq hn data)
  | takes data hs waits declined taken => exact h.takes hw hs waits declined
  | @expires l₁ _ before after =>
    refine Tracks.settles ?_ after (by simp)
    refine (h.settles before (by simp)).rest (expired (l₁.receivers.filter (isLate now))) rfl
      (fun e he => ?_) (fun _ hm _ => hm) (fun p hp _ => List.mem_of_mem_filter hp) rfl
    obtain ⟨p, -, he⟩ := List.mem_flatMap.mp he
    simp only [List.mem_cons, List.not_mem_nil, or_false] at he
    rcases he with rfl | rfl | rfl <;> exact ⟨rfl, nofun⟩
  | @refuses es k m b e picked refused =>
    refine (h.picked picked).extend [.failed (Message.send m).1 e,
      .asked (Message.send m).1 .describe, .asked m .send] rfl ?_ (by simp)
      (fun m' hm' _ => .inl (picked.mem_all.mpr (.inr hm'))) fun p hp _ => ⟨hp, fun hs => ⟨hs, rfl⟩⟩
    simp [writingsOf, writings, written?, writtenWith, refused]
  | breaks picked encoded broken => exact (h.breaks hw picked encoded _).settles broken (by simp)
  | @writes es k m b frames d wire picked encoded =>
    by_cases hm : m.number = n
    · exact h.writes hw picked hnodup hm encoded (ho picked.connected) wire
    · exact h.writes_other picked hm encoded wire

end Loop

end Hearth.Link

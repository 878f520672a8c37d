import Hearth.Proofs.Link.Coherence
import Hearth.Proofs.Link.Deliveries
import Hearth.Proofs.Link.Intake

/-!
# What becomes of a line

Throughout a run of a queue, whatever is lost and opened again, a line is written no more often than
its retries allow, and finished once at most. It is done only after it was written, and with a reply
only if that came in over the transport that took the line last, and was declined by all messages
that had waited longer.

## Main definitions

* `Station.Delivers` : a line was written no more often than it may, and none that is in the channel
  was written at all.
* `Station.Answers` : data that comes in is the reply of a line.

## Main results

* `Station.Delivers.act`, `Station.run_delivers` : a line is written no more often than it may,
  throughout a run.
* `Station.turn_completes` : the turn in which a message is completed.
* `Station.lines_delivered` : all that a line can count on.
-/

namespace Hearth.Link

variable {M : Type} [Message M]

namespace Station

variable {wrap : Line → M} {n : Nat} {line : Line} {most : Nat} {s s' : Station M}

/-- The line with a number was written no more often than `most` times, and not at all if it is
still in the channel. -/
structure Delivers (wrap : Line → M) (n : Nat) (line : Line) (most : Nat) (s : Station M) :
    Prop where
  loop : s.queue.loop.Tracks wrap n line most s.past
  channel : ∀ m ∈ s.queue.traffic.items, m.number = n →
    m.body = wrap line ∧ line.allowance ≤ most ∧ s.queue.loop.Tracks wrap n line 0 s.past

/-- A turn of the loop. -/
theorem Delivers.takes (h : s.Delivers wrap n line most) (hw : Line.Embedded wrap) (hs : s.Sound)
    (hc : s.queue.loop.Coherent s.past) {taken : List (Numbered M)} {l : Loop (Numbered M)}
    (ht : s.Takes s' taken l) : s'.Delivers wrap n line most := by
  obtain ⟨hbacklog, hheld, -⟩ := List.nodup_append.mp hs.nodup
  obtain ⟨heard, l₁, hd, -, hpub, -⟩ := ht.turn.deed hc.conn_some
  have hloop {most : Nat} (h : s.queue.loop.Tracks wrap n line most s.past)
      (htaken : ∀ m ∈ taken, m.number = n → Loop.Listed wrap line most
        (writingsOf n (s.queue.loop.log ++ s.past)).length m) :
      s'.queue.loop.Tracks wrap n line most s'.past := by
    have hl₁ := hd.tracks h hw hheld (fun hs => (hc.usable hs).1) htaken
    have hl : l.Tracks wrap n line most s.past := by
      rcases hpub with rfl | rfl
      · exact hl₁
      · exact hl₁.publish
    rw [ht.loop, ht.past]
    exact hl.drain
  refine ⟨hloop h.loop fun m hm hn => ?_, fun m hm hn => ?_⟩
  · obtain ⟨hbody, hmost, hnever⟩ := h.channel m (ht.items ▸ List.mem_append_left _ hm) hn
    have hzero := Nat.le_zero.mp hnever.bound
    exact ⟨line.retries, hbody, by rw [hzero, Nat.zero_add]; exact hmost⟩
  · obtain ⟨hbody, hmost, hnever⟩ := h.channel m (ht.items ▸ List.mem_append_right _ hm) hn
    refine ⟨hbody, hmost, hloop hnever fun m' hm' hn' => ?_⟩
    rw [Queue.backlog, ht.items, List.map_append] at hbacklog
    have hapart := (List.nodup_append.mp hbacklog).2.2
    exact absurd (hn'.trans hn.symm)
      (hapart _ (List.mem_map_of_mem hm') _ (List.mem_map_of_mem hm))

/-- What is done between the turns of the loop writes nothing. -/
theorem Idles.tracks (h : s.Idles s') (hlog : s.queue.loop.log = [])
    (ht : s.queue.loop.Tracks wrap n line most s.past) :
    s'.queue.loop.Tracks wrap n line most s'.past := by
  obtain ⟨wire, hloop⟩ := h.loop
  obtain ⟨es, hpast, hes⟩ := h.past
  have hl : Loop.Tracks wrap n line most s.past { s.queue.loop with wire, log := es } := by
    refine ht.rest es (by simp [hlog]) (fun e he => ?_) (fun _ hm _ => hm) (fun _ hp _ => hp) rfl
    obtain ⟨m, err, rfl⟩ := hes e he
    exact ⟨rfl, nofun⟩
  have hd := hl.drain
  rw [hloop, hpast]
  rwa [← hlog] at hd

/-- What is done between the turns of the loop, if the line is not given. -/
theorem Delivers.idle (h : s.Delivers wrap n line most) (hidle : s.Idles s')
    (hlog : s.queue.loop.log = [])
    (hitems : ∀ m ∈ s'.queue.traffic.items, m.number = n → m ∈ s.queue.traffic.items) :
    s'.Delivers wrap n line most :=
  ⟨hidle.tracks hlog h.loop, fun m hm hn => (h.channel m (hitems m hm hn) hn).imp_right fun hk =>
    ⟨hk.1, hidle.tracks hlog hk.2⟩⟩

theorem Delivers.mono (h : s.Delivers wrap n line most) {most' : Nat} (hle : most ≤ most') :
    s.Delivers wrap n line most' :=
  ⟨h.loop.mono hle, fun m hm hn => (h.channel m hm hn).imp_right fun hk =>
    ⟨Nat.le_trans hk.1 hle, hk.2⟩⟩

/-- The line is given: it is put into the channel. -/
theorem Delivers.given (h : s.Delivers wrap n line 0) (hidle : s.Idles s')
    (hlog : s.queue.loop.log = [])
    (hitems : s'.queue.traffic.items = s.queue.traffic.items ++ [⟨n, wrap line⟩]) :
    s'.Delivers wrap n line line.allowance := by
  have htracks := hidle.tracks hlog h.loop
  refine ⟨htracks.mono (Nat.zero_le _), fun m hm hn => ?_⟩
  rw [hitems] at hm
  rcases List.mem_append.mp hm with hm | hm
  · exact absurd (h.channel m hm hn).2.1 (Nat.not_le.mpr line.allowance_pos)
  · obtain rfl := List.mem_singleton.mp hm
    exact ⟨rfl, Nat.le_refl _, htracks⟩

/-- Every action keeps to that, and writes nothing before the line is given. -/
theorem Delivers.act (h : s.Delivers wrap n line (if n < s.next then line.allowance else 0))
    (hw : Line.Embedded wrap) (hs : s.Sound) (ht : s.stage = .stopped ∨ s.Tended)
    (hc : s.queue.loop.Coherent s.past) {a : Action M}
    (hline : n = s.next → ∀ m ∈ s.gift? a, m = wrap line) :
    (s.act a).Delivers wrap n line (if n < (s.act a).next then line.allowance else 0) := by
  by_cases ha : a = .turn
  · subst ha
    change s.turn.Delivers wrap n line (if n < s.turn.next then line.allowance else 0)
    rw [turn_next]
    rcases turn_takes ht with heq | ⟨taken, l, htakes⟩
    · rw [heq]
      exact h
    · exact h.takes hw hs hc htakes
  · have hidle := s.act_idles ha
    have hlog := hs.keeps.log
    have hfate := s.act_fate ha
    generalize s.gift? a = gift at hfate hline
    cases hfate with
    | nothing next items past =>
      rw [next]
      exact h.idle hidle hlog fun m hm _ => items ▸ hm
    | put m next items past =>
      rw [next]
      by_cases hn : n = s.next
      · obtain rfl : m = wrap line := hline hn m rfl
        subst hn
        rw [if_neg (Nat.lt_irrefl _)] at h
        rw [if_pos (Nat.lt_succ_self _)]
        exact h.given hidle hlog items
      · have hstill : n < s.next + 1 ↔ n < s.next := by omega
        simp only [hstill]
        refine h.idle hidle hlog fun m' hm' hn' => ?_
        rw [items] at hm'
        rcases List.mem_append.mp hm' with hm' | hm'
        · exact hm'
        · obtain rfl := List.mem_singleton.mp hm'
          exact absurd hn'.symm hn
    | refused m e refusal next items past =>
      rw [next]
      have hidle' := h.idle hidle hlog fun m hm _ => items ▸ hm
      refine hidle'.mono ?_
      split <;> split <;> omega

/-- A line is written no more often than it may, throughout a run; and not at all before it is
given. -/
theorem run_delivers (hw : Line.Embedded wrap) (name : Name) (config : Config) (hook : Hook)
    (as : List (Action M))
    (hline : ∀ m, ((start name config hook).given as)[n]? = some m → m = wrap line) :
    let s := (start name config hook).run as
    s.Delivers wrap n line (if n < s.next then line.allowance else 0) := by
  induction as using List.reverseRecOn with
  | nil =>
    refine ⟨⟨fun m hm => ?_, fun p hp => absurd hp List.not_mem_nil, Nat.zero_le _, ?_⟩,
      fun m hm => absurd hm List.not_mem_nil⟩
    · exact absurd hm (by simp [run, start, Queue.start, Loop.start, Buckets.all, Buckets.empty])
    · exact fun m earlier hs => absurd (List.eq_nil_of_suffix_nil hs) (List.cons_ne_nil _ _)
  | append_singleton as a ih =>
    rw [given_concat] at hline
    have h := ih fun m hm => hline m (by
      rw [List.getElem?_append_left (List.getElem?_eq_some_iff.mp hm).1]
      exact hm)
    have hlength := (run_next (start name config hook) as).trans (Nat.zero_add _)
    rw [run_concat]
    refine h.act hw ((Sound.start name config hook).run as)
      (run_tended (.inr (Tended.start name config hook)) as) (run_coherent name config hook as).1
      fun hn m hm => hline m ?_
    rw [hn, hlength, List.getElem?_append_right (Nat.le_refl _), Nat.sub_self,
      Option.mem_def.mp hm]
    rfl

/-! ### Replies -/

/-- Data that comes in over the open transport is the reply of a line: it is the transport that took
the line last, and all messages that had waited longer declined the data. -/
inductive Answers (s : Station M) (n : Nat) (text : String) : Prop
  | intro (g : Nat) (data : Bytes) (woken : List (Effect (Numbered M)))
      (queue : Queue (Numbered M)) (before after : List (Pending (Numbered M)))
      (p : Pending (Numbered M)) (stage : s.stage = .waiting)
      (input : s.queue.nextInput s.now = some (.control (.incoming g data), woken, queue))
      (text : text = Text.decodeLossy data) (transport : openTransport s.past = some g)
      (carrier : carrier? n s.past = some g) (waits : s.queue.loop.receivers = before ++ p :: after)
      (number : p.message.number = n) (declined : ∀ q ∈ before, q.Declines data)

/-- A message is completed only in a turn of the loop. If it took data, that was the input of the
turn, and came in over the open transport. -/
theorem turn_completes (ht : s.stage = .stopped ∨ s.Tended)
    (hc : s.queue.loop.Coherent s.past) (hlog : s.queue.loop.log = []) :
    ∃ es, s.turn.past = es ++ s.past ∧ ∀ m, .done m ∈ es → s.queue.loop.state = .connected ∧
      ∃ heard, s.queue.loop.Completing heard m ∧ ∀ data, heard = some data → s.stage = .waiting ∧
        ∃ woken queue, s.queue.nextInput s.now =
          some (.control (.incoming s.queue.loop.generation data), woken, queue) := by
  by_cases hst : s.stage = .waiting
  · have htended := ht.resolve_left (by simp [hst])
    rcases htended.takes hst with ⟨-, heq⟩ | ⟨input, woken, queue, hi, ⟨-, htakes⟩ | ⟨-, htakes⟩⟩
    · exact ⟨[], by rw [heq]; rfl, by simp⟩
    · refine ⟨_, htakes.past, fun m hm => ?_⟩
      rcases List.mem_cons.mp hm with heq | hm
      · cases heq
      · have hshut := Loop.Settles.shutdown queue.traffic.items s.queue.loop
        exact absurd (hshut.done_mem hm) (by simp [hlog])
    · refine ⟨_, htakes.past, fun m hm => ?_⟩
      have hd : s.queue.loop.Deed s.now input.messages (s.queue.loop.heard? input)
          (s.queue.loop.handle s.now input) :=
        Loop.handle_deed s.now fun g hg => htended.current (hg ▸ hi)
      obtain ⟨hs, hcompleting, -⟩ := hd.completes hlog hm
      refine ⟨hs, _, hcompleting, fun data hdata => ⟨hst, woken, queue, ?_⟩⟩
      rw [hi, Loop.of_heard? hdata]
  · rcases turn_takes ht with heq | ⟨taken, l, htakes⟩
    · exact ⟨[], by rw [heq]; rfl, by simp⟩
    · obtain ⟨heard, l₁, hd, hnone, hpub, -⟩ := htakes.turn.deed hc.conn_some
      refine ⟨_, htakes.past, fun m hm => ?_⟩
      have hm₁ : .done m ∈ l₁.log := by
        rcases hpub with rfl | rfl
        · exact hm
        · exact (List.mem_cons.mp hm).resolve_left nofun
      obtain ⟨hs, hcompleting, -⟩ := hd.completes hlog hm₁
      refine ⟨hs, heard, hcompleting, fun data hdata => ?_⟩
      rw [hnone hst] at hdata
      cases hdata

/-- The reply of a line that is completed. -/
theorem Delivers.answers (h : s.Delivers wrap n line most) (hw : Line.Embedded wrap)
    (hlog : s.queue.loop.log = []) (hc : s.queue.loop.Coherent s.past)
    (hstate : s.queue.loop.state = .connected) {heard : Option Bytes} {m : Numbered M}
    (hm : m.number = n) (hcompleting : s.queue.loop.Completing heard m)
    (hinput : ∀ data, heard = some data → s.stage = .waiting ∧
      ∃ woken queue, s.queue.nextInput s.now =
        some (.control (.incoming s.queue.loop.generation data), woken, queue)) :
    ∃ k, m.body = wrap { line with retries := k } ∨
      ∃ text, m.body = wrap { line with retries := k, reply := some text } ∧ s.Answers n text := by
  cases hcompleting with
  | @heard before after q data m waits declined mine =>
    have hnumber : q.message.number = m.number := congrArg (·.1.number) mine
    obtain ⟨k, hbody, -, -, -, hcarrier⟩ := h.loop.waits q (waits ▸ by simp) (hnumber.trans hm)
    have hopen := (hc.usable hstate).1
    have hcarrier := hcarrier hstate
    rw [hlog, List.nil_append] at hopen hcarrier
    obtain ⟨hst, woken, queue, hi⟩ := hinput data rfl
    rw [hw.recv_eq hbody data] at mine
    refine ⟨k, .inr ⟨_, congrArg (·.1.body) mine.symm, ?_⟩⟩
    exact .intro _ data woken queue before after q hst hi rfl hopen hcarrier waits
      (hnumber.trans hm) declined
  | @written m₀ m frames listed sent =>
    have hnumber : m₀.number = m.number := congrArg (·.1.number) sent
    obtain ⟨k, hbody, -⟩ := h.loop.listed m₀ listed (hnumber.trans hm)
    have hsame := (hw.send_eq hbody (congrArg Prod.snd sent)).1
    rw [sent] at hsame
    obtain rfl : m = m₀ := hsame
    exact ⟨k, .inl hbody⟩

/-- All that a line can count on that was given to a queue. -/
structure Delivered (wrap : Line → M) (n : Nat) (line : Line) (s : Station M) : Prop where
  written : (writingsOf n s.past).length ≤ if line.expectsReply then line.retries + 1 else 1
  finished : s.finishes n ≤ 1
  stopped : s.stage = .stopped → s.finishes n = 1
  /-- It is done only after it was written. -/
  done : ∀ m earlier, .done m :: earlier <:+ s.past → m.number = n → writingsOf n earlier ≠ []
  /-- Where it is done next, a reply is data that came in for it. -/
  answered : ∀ a, ∃ es, (s.act a).past = es ++ s.past ∧ ∀ m, .done m ∈ es → m.number = n →
    ∃ k reply, m.body = wrap { line with retries := k, reply } ∧
      ∀ text, reply = some text → s.Answers n text

/-- Whatever is done around a queue, in any order: a line that was given to it is written once at
most, or as often as it has retries and once more if it expects a reply; it is finished once at
most, and has been when the loop has stopped. It is done only after it was written. If it is done
with a reply, that was data that came in over the transport which took the line last, and all
messages that had waited longer declined it. -/
theorem lines_delivered (hw : Line.Embedded wrap) (name : Name) (config : Config) (hook : Hook)
    (as : List (Action M)) (hgiven : ((start name config hook).given as)[n]? = some (wrap line))
    (hnew : line.reply = none) : ((start name config hook).run as).Delivered wrap n line := by
  have h := run_delivers (n := n) hw name config hook as fun m hm =>
    Option.some.inj (hm.symm.trans hgiven)
  have hs : ((start name config hook).run as).Sound := (Sound.start name config hook).run as
  have ht := run_tended (.inr (Tended.start (M := M) name config hook)) as
  have hc := (run_coherent (M := M) name config hook as).1
  have hfinished := (finished_once (M := M) name config hook as).2.2
  have hn : n < ((start name config hook).run as).next := by
    rw [run_next]
    exact Nat.lt_of_lt_of_eq (List.getElem?_eq_some_iff.mp hgiven).1 (Nat.zero_add _).symm
  dsimp only at h hfinished
  generalize (start name config hook).run as = s at h hs ht hc hfinished hn ⊢
  have hlog := hs.keeps.log
  have hplaces := hs.finishes_add_places n
  rw [if_pos hn] at h hplaces
  have hbound := h.loop.bound
  have hdone := h.loop.done
  rw [hlog, List.nil_append] at hbound hdone
  constructor
  case written => exact hbound
  case finished => omega
  case stopped => exact fun hst => by rw [hfinished hst n, if_pos hn]
  case done => exact hdone
  case answered =>
    intro a
    by_cases ha : a = .turn
    · subst ha
      obtain ⟨es, hes, hcompletes⟩ := turn_completes ht hc hlog
      refine ⟨es, hes, fun m hm hnumber => ?_⟩
      obtain ⟨hstate, heard, hcompleting, hinput⟩ := hcompletes m hm
      obtain ⟨k, hbody | ⟨text, hbody, hanswers⟩⟩ :=
        h.answers hw hlog hc hstate hnumber hcompleting hinput
      · exact ⟨k, line.reply, hbody, by simp [hnew]⟩
      · exact ⟨k, some text, hbody, fun text' heq => Option.some.inj heq ▸ hanswers⟩
    · obtain ⟨es, hes, hfailed⟩ := (s.act_idles ha).past
      refine ⟨es, hes, fun m hm _ => ?_⟩
      obtain ⟨m', e, heq⟩ := hfailed _ hm
      cases heq

/-- A line is written again over a second transport, and its reply is about to be taken. -/
theorem lines_delivered_again :
    let line : Line := ⟨0, "lamp on", .standard, true, false, none, 2, none⟩
    let as : List (Action Parcel) := [.turn, .decide 1 none, .report ⟨0⟩ 1, .trySend (.line line),
      .turn, .turn, .turn, .turn, .reopen ⟨1⟩, .turn, .turn, .turn, .decide 2 none, .report ⟨2⟩ 2,
      .turn, .turn, .turn, .turn, .deliver ⟨3⟩ 2 [111, 110]]
    let s := (start default .standard .ignored).run as
    Line.Embedded Parcel.line ∧ (start default .standard .ignored).given as = [.line line] ∧
      ((writingsOf 0 s.past).length = 2 ∧ s.finishes 0 = 0 ∧ s.turn.finishes 0 = 1) ∧
      s.Delivered Parcel.line 0 line :=
  have embedded : Line.Embedded Parcel.line := ⟨fun _ => rfl, fun _ _ => rfl, fun _ => rfl⟩
  ⟨embedded, rfl, by decide +kernel, lines_delivered embedded default .standard .ignored _ rfl rfl⟩

end Station

end Hearth.Link

import Hearth.Proofs.Link.Coherence
import Hearth.Proofs.Link.Course

/-!
# The order of notices

Whoever listens to a link is told in turn that it is up and that it is down again, beginning with
up. While it is up data may turn out to be for nobody, and while it is down attempts may fail; that
a message got no reply can be told at any time. Every transport that is told to be open is that of
another attempt. One that is closed is told to be down with the very next output, unless it is closed
because the queue is.

## Main definitions

* `standing` : what a history has told about the link, if it told it in this order.
* `connections` : the attempts that a history told to have succeeded.
* `Orderly` : the order of the notices in a history.

## Main results

* `Loop.Announced.course` : every step of the link tells what it has to.
* `Station.notices_orderly` : the notices of every run are orderly.
-/

namespace Hearth.Link

variable {M : Type}

/-! ### Notices and what they tell -/

/-- Is the link up after a notice, when it was up or down before? There is no answer for a notice
that cannot come then. -/
def Notice.next (n : Notice) (up : Bool) : Option Bool :=
  match n, up with
  | .connect, false => some true
  | .disconnect _, true => some false
  | .unrouted _, true => some true
  | .error _, false => some false
  | .timeout _, up => some up
  | _, _ => none

/-- What an output tells. -/
def Output.notice? : Output M → Option Notice
  | .notice n => some n
  | _ => none

/-- Is the link up as far as a history tells, newest output first? There is no answer if a notice
came that could not come then. -/
def standing : List (Output M) → Option Bool
  | [] => some false
  | .notice n :: past => (standing past).bind n.next
  | _ :: past => standing past

/-- The generations of the transports that a history told to be open, newest first. -/
def connections : List (Output M) → List (Option Nat)
  | [] => []
  | .notice .connect :: past => lastAttempt past :: connections past
  | _ :: past => connections past

/-- The end of every transport that was closed is told with the next output. -/
def EndsTold (past : List (Output M)) : Prop :=
  ∀ g earlier, .closed g :: earlier <:+ past →
    ∃ reason, .notice (.disconnect reason) :: .closed g :: earlier <:+ past

/-- Is an output none of a step of the link, in a state of it? -/
def Output.IsAside (state : State) : Output M → Prop
  | .attempt _ => False
  | .closed _ => False
  | .notice (.timeout _) => True
  | .notice (.unrouted _) => state = .connected
  | .notice _ => False
  | _ => True

theorem Output.IsBusiness.isAside [Message M] {state : State} {o : Output M}
    (h : o.IsBusiness state) : o.IsAside state := by
  cases o with
  | attempt generation => exact h
  | closed generation => exact h
  | notice n => cases n <;> exact h
  | _ => trivial

section Asides

variable {state : State} {es past : List (Output M)}

theorem standing_append (hes : ∀ e ∈ es, e.IsAside state)
    (h : standing past = some (decide (state = .connected))) :
    standing (es ++ past) = some (decide (state = .connected)) := by
  induction es with
  | nil => exact h
  | cons e es ih =>
    have ih := ih fun e he => hes e (List.mem_cons_of_mem _ he)
    have he := hes e List.mem_cons_self
    cases e with
    | notice n =>
      rw [List.cons_append, standing, ih]
      cases n with
      | timeout message => rfl
      | unrouted data =>
        obtain rfl : state = .connected := he
        rfl
      | _ => exact he.elim
    | _ => exact ih

theorem connections_append (hes : ∀ e ∈ es, e.IsAside state) :
    connections (es ++ past) = connections past := by
  induction es with
  | nil => rfl
  | cons e es ih =>
    have ih := ih fun e he => hes e (List.mem_cons_of_mem _ he)
    have he := hes e List.mem_cons_self
    cases e with
    | notice n =>
      cases n with
      | connect => exact he.elim
      | _ => exact ih
    | _ => exact ih

theorem lastAttempt_append (hes : ∀ e ∈ es, e.IsAside state) :
    lastAttempt (es ++ past) = lastAttempt past := by
  induction es with
  | nil => rfl
  | cons e es ih =>
    have ih := ih fun e he => hes e (List.mem_cons_of_mem _ he)
    have he := hes e List.mem_cons_self
    cases e with
    | attempt generation => exact he.elim
    | _ => exact ih

theorem EndsTold.cons {o : Output M} (h : EndsTold past) (ho : ∀ g, o ≠ .closed g) :
    EndsTold (o :: past) := by
  intro g earlier hs
  rcases List.suffix_cons_iff.mp hs with he | hs
  · exact absurd (List.cons.inj he).1.symm (ho g)
  · obtain ⟨reason, hr⟩ := h g earlier hs
    exact ⟨reason, hr.trans (List.suffix_cons ..)⟩

theorem EndsTold.append (h : EndsTold past) (hes : ∀ e ∈ es, e.IsAside state) :
    EndsTold (es ++ past) := by
  induction es with
  | nil => exact h
  | cons e es ih =>
    refine (ih fun e he => hes e (List.mem_cons_of_mem _ he)).cons ?_
    rintro g rfl
    exact hes _ List.mem_cons_self

/-- A transport is closed, and that is told. -/
theorem EndsTold.disconnect (h : EndsTold past) (conn : Option Nat) (reason : String) :
    EndsTold (.notice (.disconnect reason) :: (conn.toList.map .closed ++ past)) := by
  cases conn with
  | none => exact h.cons nofun
  | some c =>
    intro g earlier hs
    rcases List.suffix_cons_iff.mp hs with he | hs
    · exact absurd he nofun
    · rcases List.suffix_cons_iff.mp hs with he | hs
      · obtain ⟨rfl, rfl⟩ : g = c ∧ earlier = past := by simpa using he
        exact ⟨reason, List.suffix_rfl⟩
      · obtain ⟨told, hr⟩ := h g earlier hs
        exact ⟨told, hr.trans ((List.suffix_cons ..).trans (List.suffix_cons ..))⟩

end Asides

/-- The notices in a history, newest output first, are in order; it may have ended with the queue
being `closed`. -/
structure Orderly (closed : Prop) (past : List (Output M)) : Prop where
  /-- The link is told to be up and to be down in turn, and all else only when it can come. -/
  standing : (standing past).isSome
  /-- What is told to be open are the transports of different attempts, each later than those
  before. -/
  connections : ∃ gs : List Nat, connections past = gs.map some ∧ gs.Pairwise (· > ·)
  /-- The end of a transport is told with the next output, unless nothing is told after it because
  the queue is closed. -/
  ends : ∀ g earlier, .closed g :: earlier <:+ past →
    (∃ reason, .notice (.disconnect reason) :: .closed g :: earlier <:+ past) ∨
      closed ∧ ∃ later, past = later ++ .closed g :: earlier ∧
        later.filterMap Output.notice? = []

namespace Loop

/-! ### What the steps of a link tell -/

/-- A loop whose notices are in order, and who has told where its link is. -/
structure Announced (past : List (Output M)) (l : Loop M) : Prop where
  standing : standing (l.log ++ past) = some (decide (l.state = .connected))
  ends : EndsTold (l.log ++ past)
  /-- What was told to be open are the transports of attempts before the one under way. -/
  connections : ∃ gs : List Nat, connections (l.log ++ past) = gs.map some ∧
    gs.Pairwise (· > ·) ∧
      ∀ g ∈ gs, if l.state = .connecting then g < l.generation else g ≤ l.generation
  attempted : l.state = .connecting → lastAttempt (l.log ++ past) = some l.generation

namespace Announced

variable {past : List (Output M)} {l l' : Loop M}

/-- What is no step of an open link, nor begins an attempt. -/
theorem aside (h : l.Announced past) {es : List (Output M)} (hl : l'.log = es ++ l.log)
    (hes : ∀ e ∈ es, e.IsAside l.state) (hg : l'.generation = l.generation)
    (hs : l'.state = .connected ↔ l.state = .connected)
    (hc : l'.state = .connecting → l.state = .connecting) : l'.Announced past := by
  obtain ⟨gs, hgs, hp, hle⟩ := h.connections
  constructor
  · rw [hl, List.append_assoc, standing_append hes h.standing]
    simp only [hs]
  · rw [hl, List.append_assoc]
    exact h.ends.append hes
  · refine ⟨gs, ?_, hp, fun g hm => ?_⟩
    · rw [hl, List.append_assoc, connections_append hes, hgs]
    · have hb := hle g hm
      rw [hg]
      split
      · next hst => rwa [if_pos (hc hst)] at hb
      · split at hb
        · exact Nat.le_of_lt hb
        · exact hb
  · intro hst
    rw [hl, List.append_assoc, lastAttempt_append hes, hg]
    exact h.attempted (hc hst)

/-- The log of a loop becomes part of its history. -/
theorem drain (h : l.Announced past) : Announced (l.log ++ past) { l with log := [] } :=
  ⟨h.standing, h.ends, h.connections, h.attempted⟩

/-- What is done while the loop has not its turn tells nothing. -/
theorem idle (h : l.Announced past) (hlog : l.log = []) {es : List (Output M)}
    (hes : ∀ e ∈ es, e.IsAside l.state) (wire : List (Option QueueError)) :
    Announced (es ++ past) { l with wire } := by
  have hl : Announced past { l with wire, log := es } :=
    h.aside (by rw [hlog, List.append_nil]) hes rfl .rfl id
  have hd := hl.drain
  rwa [← hlog] at hd

/-- An attempt begins. -/
theorem startConnect (h : l.Announced past) (hgo : l.state.canGo .connecting = true) :
    l.startConnect.Announced past := by
  have hs : l.state ≠ .connected := by
    intro hs
    rw [hs] at hgo
    cases hgo
  obtain ⟨gs, hgs, hp, hle⟩ := h.connections
  rw [Linked.startConnect_eq hgo]
  constructor
  · change Link.standing (l.log ++ past) = _
    rw [h.standing]
    simp [hs]
  · exact h.ends.cons nofun
  · refine ⟨gs, hgs, hp, fun g hm => ?_⟩
    have hb := hle g hm
    rw [if_pos rfl]
    change g < l.generation + 1
    split at hb <;> omega
  · exact fun _ => rfl

theorem maybeConnect (h : l.Announced past) : l.maybeConnect.Announced past := by
  rcases l.maybeConnect_cases with heq | ⟨hc, -, heq⟩
  · rwa [heq]
  · rw [heq]
    exact h.startConnect (by rw [hc]; rfl)

/-- An attempt succeeded. -/
theorem opened (h : l.Announced past) (hs : l.state = .connecting) :
    (l.opened l.generation).Announced past := by
  obtain ⟨gs, hgs, hp, hlt⟩ := h.connections
  simp only [hs, if_true] at hlt
  have hdown := h.standing
  rw [hs] at hdown
  rw [opened_eq hs]
  constructor
  · change (Link.standing (l.log ++ past)).bind _ = _
    rw [hdown]
    rfl
  · exact h.ends.cons nofun
  · refine ⟨l.generation :: gs, ?_, List.pairwise_cons.mpr ⟨hlt, hp⟩, fun g hm => ?_⟩
    · change lastAttempt (l.log ++ past) :: Link.connections (l.log ++ past) = _
      rw [h.attempted hs, hgs]
      rfl
    · rw [if_neg nofun]
      rcases List.mem_cons.mp hm with rfl | hm
      · exact Nat.le_refl _
      · exact Nat.le_of_lt (hlt g hm)
  · nofun

/-- The transport is closed. -/
theorem disconnected (h : l.Announced past) (hs : l.state = .connected) (state : State)
    (hst : state ≠ .connected ∧ state ≠ .connecting) (reason : String) :
    (l.disconnected state reason).Announced past := by
  obtain ⟨gs, hgs, hp, hle⟩ := h.connections
  have hup := h.standing
  rw [hs] at hup hle
  have hnone (xs : List (Output M)) : Link.standing (l.conn.toList.map .closed ++ xs) =
      Link.standing xs ∧
        Link.connections (l.conn.toList.map .closed ++ xs) = Link.connections xs := by
    cases l.conn <;> exact ⟨rfl, rfl⟩
  have hlog : (l.disconnected state reason).log ++ past =
      .notice (.disconnect reason) :: (l.conn.toList.map .closed ++ (l.log ++ past)) := by
    rw [Loop.disconnected, List.cons_append, List.append_assoc]
  constructor
  · rw [hlog, Link.standing, (hnone _).1, hup]
    change some false = some (decide (state = .connected))
    rw [decide_eq_false hst.1]
  · rw [hlog]
    exact h.ends.disconnect l.conn reason
  · refine ⟨gs, ?_, hp, fun g hm => ?_⟩
    · rw [hlog]
      exact (hnone _).2.trans hgs
    · change if state = .connecting then g < l.generation else g ≤ l.generation
      rw [if_neg hst.2]
      exact hle g hm
  · exact fun hc => absurd hc hst.2

/-- After a failure the link is down, whatever becomes of it. -/
theorem scheduleRetry (h : l.Announced past) (now : Nat) (reason : String)
    (hs : l.state ≠ .connected) (hw : l.state.canGo .waiting = true)
    (hc : l.state.canGo .closed = true) : (l.scheduleRetry now reason).Announced past := by
  rcases scheduleRetry_outcome now l reason hw hc with ⟨-, due, heq⟩ | ⟨-, heq⟩
  · rw [heq]
    exact h.aside (List.nil_append _).symm (by simp) rfl (iff_of_false nofun hs) nofun
  · rw [heq]
    refine h.aside rfl (fun e he => ?_) rfl (iff_of_false nofun hs) nofun
    obtain ⟨m, -, rfl⟩ := List.mem_map.mp (List.mem_reverse.mp he)
    trivial

/-- That an attempt failed is told. -/
theorem refused (h : l.Announced past) (hs : l.state = .connecting) (reason : String) :
    ({ l with connecting := none }.emit (.error reason)).Announced past := by
  have hdown := h.standing
  rw [hs] at hdown
  refine ⟨?_, h.ends.cons nofun, h.connections, h.attempted⟩
  change (Link.standing (l.log ++ past)).bind _ = some (decide (l.state = .connected))
  rw [hdown, hs]
  rfl

variable [Message M]

theorem trades (h : l.Announced past) (ht : l.Trades l') : l'.Announced past := by
  obtain ⟨es, hl, hes⟩ := ht.log
  exact h.aside hl (fun e he => (hes e he).isAside) ht.generation (by rw [ht.state])
    (fun hs => ht.state ▸ hs)

/-- Every step of the link tells what it has to. -/
theorem course {now : Nat} {heard : Option Nat} (h : l.Announced past)
    (hc : l.Course now heard l') : l'.Announced past := by
  cases hc with
  | opens before connecting after => exact ((h.trades before).opened connecting).trades after
  | rests before => exact h.trades before
  | begins before closed wanted => exact (h.trades before).startConnect (by rw [closed]; rfl)
  | @resumes l₁ _ before waiting due after =>
    have h₁ : Announced past { l₁ with retryAt := none } :=
      (h.trades before).aside (List.nil_append _).symm (by simp) rfl .rfl id
    have hgo : State.canGo l₁.state .connecting = true := by rw [waiting]; rfl
    exact (h₁.startConnect hgo).trades after
  | @fails l₁ before connecting reason =>
    refine ((h.trades before).refused connecting reason).scheduleRetry now reason ?_ ?_ ?_
    · change l₁.state ≠ .connected
      simp [connecting]
    · change l₁.state.canGo .waiting = true
      rw [connecting]
      rfl
    · change l₁.state.canGo .closed = true
      rw [connecting]
      rfl
  | breaks before connected reason =>
    rw [linkLost_eq connected]
    exact ((h.trades before).disconnected connected .closing ⟨nofun, nofun⟩ reason).scheduleRetry
      now reason nofun rfl rfl
  | recycles before connected reason =>
    rw [recycle_eq connected]
    exact ((h.trades before).disconnected connected .closed ⟨nofun, nofun⟩ reason).maybeConnect

omit [Message M] in
theorem orderly (h : l.Announced past) (closed : Prop) : Orderly closed (l.log ++ past) := by
  obtain ⟨gs, hgs, hp, -⟩ := h.connections
  exact ⟨by rw [h.standing]; rfl, ⟨gs, hgs, hp⟩, fun g earlier hs => .inl (h.ends g earlier hs)⟩

omit [Message M] in
/-- What a link that is closed for good does to the outside: it may close its transport, and tells
nothing more. -/
theorem hangUp_orderly (h : l.Announced past) : Orderly True (l.hangUp.publish.log ++ past) := by
  obtain ⟨gs, hgs, hp, -⟩ := h.connections
  obtain ⟨conn, hlog⟩ : ∃ conn : Option Nat, l.hangUp.publish.log ++ past =
      .published l.hangUp.snapshot :: (conn.toList.map .closed ++ (l.log ++ past)) := by
    refine ⟨if l.state = .connected then l.conn else none, ?_⟩
    change .published l.hangUp.snapshot :: (l.hangUp.log ++ past) = _
    rw [hangUp_eq]
    split <;> simp
  rw [hlog]
  cases conn with
  | none =>
    have hends : EndsTold (.published l.hangUp.snapshot :: (l.log ++ past)) := h.ends.cons nofun
    refine ⟨?_, ⟨gs, hgs, hp⟩, fun g earlier hs => .inl (hends g earlier hs)⟩
    change (Link.standing (l.log ++ past)).isSome
    rw [h.standing]
    rfl
  | some c =>
    refine ⟨?_, ⟨gs, hgs, hp⟩, fun g earlier hs => ?_⟩
    · change (Link.standing (l.log ++ past)).isSome
      rw [h.standing]
      rfl
    · rcases List.suffix_cons_iff.mp hs with he | hs
      · exact absurd he nofun
      · rcases List.suffix_cons_iff.mp hs with he | hs
        · exact .inr ⟨trivial, [.published _], by rw [he]; rfl, rfl⟩
        · obtain ⟨reason, hr⟩ := h.ends g earlier hs
          exact .inl ⟨reason, hr.trans ((List.suffix_cons ..).trans (List.suffix_cons ..))⟩

/-- A turn of the loop leaves it with its notices in order, unless it is the last one. -/
theorem turn {now : Nat} {stage stage' : Stage} {taken : List M} (h : l.Announced past)
    (ht : Turn now stage l taken stage' l') (hs : stage' ≠ .stopped) : l'.Announced past := by
  obtain ⟨heard, l₁, hc, hpub, -⟩ := ht.course hs
  have h₁ := h.course hc
  rcases hpub with rfl | rfl
  · exact h₁
  · exact h₁.aside List.singleton_append.symm (by simp [Output.IsAside]) rfl .rfl id

/-- After its last turn too the notices of a loop are in order. -/
theorem turn_stopped {now : Nat} {stage : Stage} {taken : List M} (h : l.Announced past)
    (ht : Turn now stage l taken .stopped l') : Orderly True (l'.log ++ past) := by
  cases ht
  obtain ⟨l₁, ht, heq⟩ := l.shutdown_trades taken
  rw [heq]
  exact (h.trades ht).hangUp_orderly

end Announced

end Loop

/-! ### Runs -/

/-- A closed queue that fails messages tells nothing more. -/
theorem Orderly.idle {past es : List (Output M)} (h : Orderly True past)
    (hes : ∀ o ∈ es, ∃ m e, o = .failed m e) : Orderly True (es ++ past) := by
  induction es with
  | nil => exact h
  | cons o es ih =>
    have ih := ih fun o ho => hes o (List.mem_cons_of_mem _ ho)
    obtain ⟨m, e, rfl⟩ := hes o List.mem_cons_self
    refine ⟨ih.standing, ih.connections, fun g earlier hs => ?_⟩
    rcases List.suffix_cons_iff.mp hs with he | hs
    · exact absurd he nofun
    · rcases ih.ends g earlier hs with ⟨reason, hr⟩ | ⟨-, later, heq, hquiet⟩
      · exact .inl ⟨reason, hr.trans (List.suffix_cons ..)⟩
      · exact .inr ⟨trivial, .failed m e :: later, by rw [List.cons_append, heq]; rfl, hquiet⟩

namespace Station

/-- Whatever is done around a queue, in any order, its notices come in the order of a link: it is
told to be up and to be down in turn, data for nobody comes only in between, and attempts fail only
outside; each connection is that of another attempt, and its end is told at once, unless the queue
is closed. As long as the queue is not stopped, the link is told to be up exactly while it is
connected, which is while its transport is open. -/
theorem notices_orderly [Message M] (name : Name) (config : Config) (hook : Hook)
    (as : List (Action M)) :
    let s := (start name config hook).run as
    Orderly (s.stage = .stopped) s.past ∧ (s.stage ≠ .stopped →
      standing s.past = some (decide (s.queue.loop.state = .connected)) ∧
        standing s.past = some (openTransport s.past).isSome) := by
  have hrun := run_start (M := M) (I := fun stage past l =>
    (stage ≠ .stopped → l.Announced past) ∧ (stage = .stopped → Orderly True past)) ?_ ?_
    name config hook ?_ as
  · obtain ⟨hc, -⟩ := run_coherent name config hook as
    have hlog := ((Sound.start name config hook).run as).keeps.log
    dsimp only at hrun ⊢
    generalize (start name config hook).run as = s at hc hlog hrun
    have hopen := hc.transport
    rw [hlog, List.nil_append] at hopen
    by_cases hs : s.stage = .stopped
    · exact ⟨by simpa [hs] using hrun.2 hs, fun hns => absurd hs hns⟩
    · have ha := hrun.1 hs
      have ho := ha.orderly (s.stage = .stopped)
      have hstand := ha.standing
      rw [hlog, List.nil_append] at ho hstand
      refine ⟨ho, fun _ => ⟨hstand, ?_⟩⟩
      rw [hstand, hopen, hc.conn]
      split <;> simp_all
  · rintro stage past l es wire ⟨h, hst⟩ hlog hes
    refine ⟨fun hs => (h hs).idle hlog (fun o ho => ?_) wire, fun hs => (hst hs).idle hes⟩
    obtain ⟨m, e, rfl⟩ := hes o ho
    trivial
  · rintro now stage past l taken stage' l' ⟨h, -⟩ - ht
    have hs : stage ≠ .stopped := by
      rintro rfl
      cases ht
    refine ⟨fun hs' => ((h hs).turn ht hs').drain, fun hs' => ?_⟩
    subst hs'
    exact (h hs).turn_stopped ht
  · have hends : EndsTold (M := Numbered M) [] := fun g earlier hs => by simp at hs
    exact ⟨fun _ => ⟨rfl, hends, ⟨[], rfl, .nil, by simp⟩, nofun⟩, nofun⟩

end Station

end Hearth.Link

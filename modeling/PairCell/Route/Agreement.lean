import PairCell.Route.Play
import PairCell.Route.Timely

/-!
# What the two databases agree on

A cell holds nothing of its peer that the peer has not sent, whatever the
controller loses and whatever overtakes what.  Facts about what a cell has sent
therefore carry over to the database of the other.
-/

namespace PairCell

open Lib World

namespace RelayLine

variable {P : Type}

/-- Nothing is handed over or retained that was not sent. -/
def Genuine (line : RelayLine P) : Prop :=
  ∀ e ∈ line.handed ++ line.relay.pending, e ∈ line.sends

theorem Genuine.step {line : RelayLine P} {c : RelayCall P} (h : line.Genuine) :
    (line.step c).Genuine := by
  cases c with
  | flush oks =>
      have hsplit := WorkerPairCellRelay.flushLoop_split line.relay line.relay.pending oks
      simpa only [Genuine, RelayLine.step, WorkerPairCellRelay.flushPending,
        List.append_assoc, hsplit] using h
  | send e ok =>
      have hold : ∀ x ∈ line.handed ++ line.relay.pending, x ∈ line.sends ++ [e] :=
        fun x hx => List.mem_append_left _ (h x hx)
      cases ok with
      | true =>
          intro x hx
          simp only [RelayLine.step, WorkerPairCellRelay.send, if_true, List.mem_append,
            List.mem_singleton] at hx hold ⊢
          obtain (hx | rfl) | hx := hx
          · exact hold x (.inl hx)
          · exact .inr rfl
          · exact hold x (.inr hx)
      | false =>
          obtain ⟨kept, hkept, hpending⟩ := WorkerPairCellRelay.enqueuePending_pending
            { line.relay with sendFailed := line.relay.sendFailed + 1 } e
          intro x hx
          simp only [RelayLine.step, WorkerPairCellRelay.send,
            Bool.false_eq_true, if_false, hpending, List.append_nil, List.mem_append,
            List.mem_singleton] at hx hold ⊢
          obtain hx | hx | hx := hx
          · exact hold x (.inl hx)
          · exact hold x (.inr (hkept.subset hx))
          · exact .inr hx

end RelayLine

namespace Route

variable {s s' : Route} {l : Label} {side : Role}

theorem genuine_after {v : Wire} (h : v.line.Genuine) (side : Role) (l : Label) :
    (wireAfter v side l).line.Genuine := by
  simp only [wireAfter, lineAfter]
  rcases l.call? with _ | ⟨r, call⟩
  · dsimp only
    split
    · intro e he
      exact h e (List.mem_append_left _ (by simpa using he))
    · exact h
  · dsimp only
    split
    · exact h.step
    · exact h

theorem arrived_genuine {v : Wire} (h : v.line.Genuine) {m : Message}
    (hm : m ∈ v.arrived) :
    m ∈ v.sends := by
  obtain ⟨e, he, rfl⟩ := List.mem_map.1 hm
  exact List.mem_map_of_mem (h e (List.mem_append_left _ (List.mem_of_mem_take he)))

/-- The two cells of the route `routeId`. -/
def config (leaderId followerId routeId : Nat) : Role → Config
  | .leader => ⟨leaderId, .leader, routeId⟩
  | .follower => ⟨followerId, .follower, routeId⟩

variable {c : Role → Config}

/-- What holds between the two sides of every run. -/
structure Joined (c : Role → Config) (s : Route) : Prop where
  cfg : ∀ r, (s.proc r).cfg = c r
  role : ∀ r, (c r).role = r
  sound : ∀ r, (s.proc r).Sound
  history : ∀ r, History (c r) (s.proc r).disk
  genuine : ∀ r, (s.wire r).line.Genuine
  fromCell : ∀ r, FromCell s r
  heard : ∀ r, Heard s r

theorem Joined.sided (h : Joined c s) (r : Role) : Sided (c r).routeId s r :=
  ⟨by rw [h.cfg]; exact ⟨h.role r, rfl⟩, by rw [h.cfg]; exact h.history r, h.sound r⟩

theorem reach_joined {ok : Route → Label → Prop} {leaderId followerId routeId : Nat}
    (h : Reach Step ok (init leaderId followerId routeId) s) :
    Joined (config leaderId followerId routeId) s := by
  have hproc : ∀ {t}, Reach Step ok (init leaderId followerId routeId) t → ∀ r,
      History (config leaderId followerId routeId r) (t.proc r).disk ∧
        (t.proc r).cfg = config leaderId followerId routeId r ∧ (t.proc r).Sound := by
    intro t ht r
    cases r with
    | leader => exact reach_history (reach_proc ht .leader)
    | follower => exact reach_history (reach_proc ht .follower)
  have hrole : ∀ r, (config leaderId followerId routeId r).role = r := by
    intro r
    cases r <;> rfl
  induction h with
  | refl =>
      refine ⟨fun r => (hproc .refl r).2.1, hrole, fun r => (hproc .refl r).2.2,
        fun r => (hproc .refl r).1, ?_, ?_, ?_⟩
      · intro r e he
        cases r <;> cases he
      · exact (timely_init ..).fromCell
      · exact (timely_init ..).heard
  | tail l h hok hstep ih =>
      have hnew := hproc (.tail l h hok hstep)
      refine ⟨fun r => (hnew r).2.1, hrole, fun r => (hnew r).2.2,
        fun r => (hnew r).1, ?_, ?_, ?_⟩
      · intro r
        rw [hstep.wire]
        exact genuine_after (ih.genuine r) r l
      · exact fun r => (ih.fromCell r).step (ih.sided r) hstep
      · exact fun r => (ih.heard r).step (ih.sided r) hstep

/-- What has arrived, the peer's cell has relayed. -/
theorem Joined.arrived (h : Joined c s) {r : Role} {m : Message}
    (hm : m ∈ (s.wire r).arrived) (hcell : ∀ k, m ≠ .other k) :
    m ∈ (s.proc r).disk.relayed := by
  obtain hrelayed | ⟨k, hk⟩ := h.fromCell r m (arrived_genuine (h.genuine r) hm)
  · exact hrelayed
  · exact absurd hk (hcell k)

theorem Joined.cfgOf (h : Joined c s) {r : Role} {w : World} {todo : List Action}
    (hp : s.proc r = .up w todo) : w.cfg = c r := by
  have hcfg := h.cfg r
  rw [hp] at hcfg
  exact hcfg

theorem Joined.roleOf (h : Joined c s) {r : Role} {w : World} {todo : List Action}
    (hp : s.proc r = .up w todo) : w.cfg.role = r := by
  rw [h.cfgOf hp, h.role]

theorem Joined.heardIn (h : Joined c s) {r : Role} {w : World} {todo : List Action}
    (hp : s.proc r = .up w todo) : HeardIn (s.wire r.peer).arrived w := by
  have hheard := h.heard r
  unfold Heard at hheard
  rw [hp] at hheard
  cases hheard with
  | up hheard => exact hheard

/-- The envelope being handled was relayed by the peer's cell. -/
theorem Joined.delivered (h : Joined c s) {r : Role} {w : World} {todo : List Action}
    (hp : s.proc r = .up w todo) {m : Message} (hm : w.script.delivered = some m)
    (hcell : ∀ k, m ≠ .other k) : m ∈ (s.proc r.peer).disk.relayed :=
  h.arrived ((h.heardIn hp).delivered m hm) hcell

/-- The peer's status a cell holds, the peer's cell has reported. -/
theorem Joined.told (h : Joined c s) {r : Role} {w : World} {todo : List Action}
    (hp : s.proc r = .up w todo) {a : Attempt} (ha : w.mem.attempt = some a)
    (hstatus : w.mem.peerLeg.status ≠ .unknown) :
    ∃ p, .legStatus p ∈ (s.proc r.peer).disk.relayed ∧ p.attemptId = a.attemptId ∧
      p.status = w.mem.peerLeg.status := by
  obtain hunknown | ⟨p, hp', hid, hp''⟩ := (h.heardIn hp).held a ha
  · exact absurd hunknown hstatus
  · exact ⟨p, h.arrived hp' (fun _ hk => nomatch hk), hid, hp''⟩

/-! ## Facts about two databases -/

theorem eq_or_peer (q r : Role) : q = r ∨ q = r.peer := by
  cases q <;> cases r <;> simp [Role.peer]

/-- One side carries out one action of its call, or no database changes. -/
inductive Moves (s s' : Route) : Prop where
  | still (h : ∀ r, (s'.proc r).disk = (s.proc r).disk)
  | act (r : Role) (w : World) (x : Action) (todo : List Action)
      (hp : s.proc r = .up w (x :: todo)) (hp' : s'.proc r = .up (w.act x) todo)
      (hother : s'.proc r.peer = s.proc r.peer) (hw : PairCell.Sound w) (hx : Permits w x)

theorem Step.moves (h : Step s l s') (hs : ∀ r, (s.proc r).Sound) : Moves s s' := by
  cases h with
  | @cell r l₀ p requestId ok hstep _ =>
      cases (hs r).moves hstep with
      | @exec w x todo hp hl hp' hw hx =>
          subst hp'
          refine .act r w x todo hp ?_ ?_ hw hx
          · rw [proc_onWires, proc_withProc, if_pos rfl]
          · rw [proc_onWires, proc_withProc, if_neg (by cases r <;> simp [Role.peer])]
      | still hdisk _ _ _ =>
          refine .still fun r' => ?_
          rw [proc_onWires, proc_withProc]
          split
          · next hr => rw [hr, hdisk]
          · rfl
  | publish => exact .still fun r => by rw [proc_onWires]
  | flush => exact .still fun r => by rw [proc_onWires]
  | lose => exact .still fun r => by rw [proc_onWires]

/--
A relation between the database of a side and that of its peer that no permitted
action of either breaks holds in every state reached.
-/
theorem reach_both {ok : Route → Label → Prop} {leaderId followerId routeId : Nat}
    {P : Role → Disk → Disk → Prop}
    (h : Reach Step ok (init leaderId followerId routeId) s) (hinit : ∀ r, P r {} {})
    (hact : ∀ {t : Route} {r : Role} {w : World} {x : Action} {todo : List Action},
      Reach Step ok (init leaderId followerId routeId) t → t.proc r = .up w (x :: todo) →
      PairCell.Sound w → Permits w x → (∀ r, P r (t.proc r).disk (t.proc r.peer).disk) →
      P r (w.act x).disk (t.proc r.peer).disk ∧
      P r.peer (t.proc r.peer).disk (w.act x).disk) :
    ∀ r, P r (s.proc r).disk (s.proc r.peer).disk := by
  induction h with
  | refl =>
      intro r
      cases r <;> exact hinit _
  | @tail t u l h hok hstep ih =>
      cases hstep.moves (reach_joined h).sound with
      | still hdisk =>
          intro r
          rw [hdisk r, hdisk r.peer]
          exact ih r
      | act r w x todo hp hp' hother hw hx =>
          obtain ⟨hown, hpeer⟩ := hact h hp hw hx ih
          have hcell : (u.proc r).disk = (w.act x).disk := by rw [hp']; rfl
          intro r'
          obtain rfl | rfl := eq_or_peer r' r
          · rw [hcell, hother]
            exact hown
          · rw [hother, peer_peer, hcell]
            exact hpeer

/-! ## Attempts -/

/-- The leader sends attempts it has persisted, and the follower
persists what it was sent. -/
structure Copied (r : Role) (own peer : Disk) : Prop where
  relayed : ∀ a, .attempt a ∈ own.relayed → r = .leader ∧
      ∃ row ∈ own.attempts, row.attempt = a
  rows : r = .follower → ∀ row ∈ own.attempts, .attempt row.attempt ∈ peer.relayed

/-- A row that a permitted action adds is that of the attempt handed over, or of the
leader. -/
theorem row_source {w : World} {x : Action} (hx : Permits w x) {row : AttemptRow}
    (hrow : row ∈ (w.act x).disk.attempts) :
    (∃ old ∈ w.disk.attempts, old.attempt = row.attempt) ∨
      (w.cfg.role = .follower → w.script.delivered = some (.attempt row.attempt)) := by
  rw [act_attempts] at hrow
  cases x with
  | adopt b =>
      obtain hold | hnew := List.mem_append.1 hrow
      · exact .inl ⟨row, hold, rfl⟩
      · obtain rfl := List.mem_singleton.1 hnew
        exact .inr hx.2.2.2.2.1
  | refuse b reason =>
      obtain hold | hnew := List.mem_append.1 hrow
      · exact .inl ⟨row, hold, rfl⟩
      · obtain rfl := List.mem_singleton.1 hnew
        exact .inr fun _ => hx.2.2
  | terminate reason =>
      obtain ⟨old, hold, rfl⟩ := List.mem_map.1 hrow
      exact .inl ⟨old, hold, (terminateRow_attempt ..).symm⟩
  | _ => exact .inl ⟨row, hrow, rfl⟩

variable {ok : Route → Label → Prop} {leaderId followerId routeId : Nat}

theorem reach_copied (h : Reach Step ok (init leaderId followerId routeId) s) (r : Role) :
    Copied r (s.proc r).disk (s.proc r.peer).disk := by
  refine reach_both (P := Copied) h ?_ ?_ r
  · exact fun r => ⟨fun a ha => (nomatch ha), fun _ row hrow => nomatch hrow⟩
  · intro t r w x todo ht hp hw hx ih
    have hjoined := reach_joined ht
    have hrole := hjoined.roleOf hp
    have hown := ih r
    rw [hp] at hown
    have hpeer := ih r.peer
    rw [peer_peer, hp] at hpeer
    refine ⟨⟨?_, ?_⟩, ⟨hpeer.relayed, ?_⟩⟩
    · intro a ha
      obtain hold | rfl := relayed_act ha
      · obtain ⟨hr, hrow⟩ := hown.relayed a hold
        exact ⟨hr, act_row_stays x hrow⟩
      · obtain ⟨hleader, hattempt, -⟩ := hx
        obtain ⟨row, hrow, heq, -⟩ := hw.mem.live a hattempt
        exact ⟨hrole.symm.trans hleader, act_row_stays _ ⟨row, hrow, heq⟩⟩
    · intro hr row hrow
      obtain ⟨old, hold, heq⟩ | hdelivered := row_source hx hrow
      · rw [← heq]
        exact hown.rows hr old hold
      · exact hjoined.delivered hp (hdelivered (hrole.trans hr)) fun _ hk => nomatch hk
    · intro hr row hrow
      rw [act_relayed]
      exact List.mem_append_left _ (hpeer.rows hr row hrow)

/--
Every attempt the follower has a row of, admitted or refused, is one the leader
has persisted and sent, with the same content.
-/
theorem follower_follows_leader
    (h : Reach Step anyLabel (init leaderId followerId routeId) s) :
    ∀ row ∈ s.follower.disk.attempts, .attempt row.attempt ∈ s.leader.disk.relayed ∧
      ∃ row' ∈ s.leader.disk.attempts, row'.attempt = row.attempt := by
  intro row hrow
  have hsent := (reach_copied h .follower).rows rfl row hrow
  exact ⟨hsent, ((reach_copied h .leader).relayed _ hsent).2⟩

theorem follower_follows_leader_entered : ∃ s, Reach Step anyLabel Sample.both s ∧
    s.follower.disk.attempts ≠ [] ∧ ∀ row ∈ s.follower.disk.attempts,
      .attempt row.attempt ∈ s.leader.disk.relayed ∧
        ∃ row' ∈ s.leader.disk.attempts, row'.attempt = row.attempt := by
  obtain ⟨s, hrun, hs⟩ := plays_any anyLabel Sample.both Sample.entered
    (fun s => decide (s.follower.disk.attempts ≠ [])) (by decide +kernel)
  exact ⟨s, hrun, of_decide_eq_true hs, follower_follows_leader hrun⟩

/-! ## Entry orders -/

/-- Every entry order is the one that the attempt of its effect asks of this side. -/
def OrdersMatch (c : Config) (d : Disk) : Prop :=
  ∀ q ∈ d.sent, q.payload.isEntry = true → ∃ row ∈ d.attempts,
    q.effect = .cell row.attempt.attemptId c.workerId .entry ∧
      q.payload = entryPayload row.attempt c.role

theorem OrdersMatch.act {w : World} {x : Action} (hw : PairCell.Sound w) (hx : Permits w x)
    (h : OrdersMatch w.cfg w.disk) : OrdersMatch w.cfg (w.act x).disk := by
  have hkept : ∀ q ∈ w.disk.sent, q.payload.isEntry = true →
      ∃ row ∈ (w.act x).disk.attempts,
        q.effect = .cell row.attempt.attemptId w.cfg.workerId .entry ∧
        q.payload = entryPayload row.attempt w.cfg.role := by
    intro q hq hentry
    obtain ⟨row, hrow, heffect, hpayload⟩ := h q hq hentry
    obtain ⟨row', hrow', heq⟩ := act_row_stays x ⟨row, hrow, rfl⟩
    exact ⟨row', hrow', by rw [heq]; exact heffect, by rw [heq]; exact hpayload⟩
  intro q hq hentry
  rw [act_sent] at hq
  obtain hold | hnew := List.mem_append.1 hq
  · exact hkept q hold hentry
  · cases x with
    | orderSend e p r =>
        obtain rfl := List.mem_singleton.1 hnew
        obtain ⟨-, -, hdispatch, -⟩ := hx
        obtain ⟨a, l, ha, -, rfl, rfl, -⟩ := hdispatch hentry
        obtain ⟨row, hrow, rfl, -⟩ := hw.mem.live a ha
        obtain ⟨row', hrow', heq⟩ :=
          act_row_stays (.orderSend (entryEffectId w.cfg row.attempt)
          (entryPayload row.attempt w.cfg.role) r) ⟨row, hrow, rfl⟩
        exact ⟨row', hrow', by rw [heq]; rfl, by rw [heq]⟩
    | _ => cases hnew

theorem reach_ordersMatch {ok : Proc → PairCell.Label → Prop} {c : Config} {p : Proc}
    (h : Reach Proc.Step ok (.init c) p) : OrdersMatch c p.disk := by
  refine (Proc.reach_disk (I := OrdersMatch c) h (fun q hq => nomatch hq) ?_).1
  rintro w x todo hw rfl hi hx _
  exact hi.act hw hx

/-- An attempt has one content, whoever has a row of it. -/
theorem one_content (h : Reach Step anyLabel (init leaderId followerId routeId) s)
    {own peer : AttemptRow} (hown : own ∈ s.leader.disk.attempts)
    (hpeer : peer ∈ s.follower.disk.attempts)
    (hid : own.attempt.attemptId = peer.attempt.attemptId) :
    own.attempt = peer.attempt := by
  obtain ⟨-, row, hrow, heq⟩ := follower_follows_leader h peer hpeer
  have hids := ((reach_joined h).sound .leader).diskSound.ids
  rw [← heq] at hid ⊢
  rw [row_unique hids hown hrow hid]

/--
The entry orders that the two terminals were handed for one attempt are the two
sides of that attempt, as both databases have it.
-/
theorem entry_orders_mirror (h : Reach Step anyLabel (init leaderId followerId routeId) s)
    {n : Nat} {q q' : Sent} (hq : q ∈ s.leader.disk.sent)
    (hentry : q.payload.isEntry = true) (heffect : q.effect = .cell n leaderId .entry)
    (hq' : q' ∈ s.follower.disk.sent) (hentry' : q'.payload.isEntry = true)
    (heffect' : q'.effect = .cell n followerId .entry) :
    ∃ a : Attempt, a.attemptId = n ∧ (∃ row ∈ s.leader.disk.attempts, row.attempt = a) ∧
      (∃ row ∈ s.follower.disk.attempts, row.attempt = a) ∧
      q.payload = entryPayload a .leader ∧ q'.payload = entryPayload a .follower := by
  obtain ⟨own, hown, hid, hpayload⟩ := reach_ordersMatch (reach_proc h .leader) q hq hentry
  obtain ⟨peer, hpeer, hid', hpayload'⟩ :=
    reach_ordersMatch (reach_proc h .follower) q' hq' hentry'
  have hn : own.attempt.attemptId = n := by simpa using hid.symm.trans heffect
  have hn' : peer.attempt.attemptId = n := by simpa using hid'.symm.trans heffect'
  have hsame := one_content h hown hpeer (hn.trans hn'.symm)
  exact ⟨own.attempt, hn, ⟨own, hown, rfl⟩, ⟨peer, hpeer, hsame.symm⟩, hpayload,
    by rw [hsame]; exact hpayload'⟩

namespace Sample

/-- The entry order of the attempt 100 was handed to the terminal of the worker. -/
def entrySent (d : Disk) (workerId : Nat) : Bool :=
  d.sent.any fun q => q.payload.isEntry && decide (q.effect = .cell 100 workerId .entry)

theorem entrySent_mem {d : Disk} {workerId : Nat} (h : entrySent d workerId = true) :
    ∃ q ∈ d.sent, q.payload.isEntry = true ∧ q.effect = .cell 100 workerId .entry := by
  obtain ⟨q, hq, hentry⟩ := List.any_eq_true.1 h
  obtain ⟨hmarket, heffect⟩ := Bool.and_eq_true_iff.1 hentry
  exact ⟨q, hq, hmarket, of_decide_eq_true heffect⟩

end Sample

theorem entry_orders_mirror_entered : ∃ s, ∃ q ∈ s.leader.disk.sent,
    ∃ q' ∈ s.follower.disk.sent, Reach Step anyLabel Sample.both s ∧
      ∃ a : Attempt, a.attemptId = 100 ∧
      (∃ row ∈ s.leader.disk.attempts, row.attempt = a) ∧
      (∃ row ∈ s.follower.disk.attempts, row.attempt = a) ∧
      q.payload = entryPayload a .leader ∧ q'.payload = entryPayload a .follower := by
  obtain ⟨s, hrun, hs⟩ := plays_any anyLabel Sample.both Sample.entered
    (fun s => Sample.entrySent s.leader.disk 1 && Sample.entrySent s.follower.disk 2)
    (by decide +kernel)
  obtain ⟨hleader, hfollower⟩ := Bool.and_eq_true_iff.1 hs
  obtain ⟨q, hq, hentry, heffect⟩ := Sample.entrySent_mem hleader
  obtain ⟨q', hq', hentry', heffect'⟩ := Sample.entrySent_mem hfollower
  exact ⟨s, q, hq, q', hq', hrun,
    entry_orders_mirror hrun hq hentry heffect hq' hentry' heffect'⟩

end Route

end PairCell

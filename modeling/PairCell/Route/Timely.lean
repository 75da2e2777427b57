import PairCell.Route

/-!
# What the cells of a route know of each other
-/

namespace PairCell

open Lib World

/-! ## What a cell has from its peer -/

/-- The status comes from an envelope of `H`. -/
def ToldIn (H : List Message) (i : Nat) (status : Status) : Prop :=
  status = .unknown ∨ ∃ p, .legStatus p ∈ H ∧ p.attemptId = i ∧ p.status = status

theorem ToldIn.mono {H H' : List Message} {i : Nat} {status : Status}
    (h : ToldIn H i status) (hsub : ∀ m ∈ H, m ∈ H') : ToldIn H' i status :=
  h.imp_right fun ⟨p, hp, hi, hstatus⟩ => ⟨p, hsub _ hp, hi, hstatus⟩

/-- A running cell holds nothing of its peer that is not in an envelope of `H`. -/
structure HeardIn (H : List Message) (w : World) : Prop where
  delivered : ∀ m, w.script.delivered = some m → m ∈ H
  stored : ∀ i v, w.disk.peerLegs.get i = some (.view v) → ToldIn H i v.status
  held : ∀ a, w.mem.attempt = some a → ToldIn H a.attemptId w.mem.peerLeg.status

theorem HeardIn.act {H : List Message} {w : World} {x : Action} (h : HeardIn H w)
    (hw : PairCell.Sound w) (hp : Permits w x) : HeardIn H (w.act x) := by
  refine ⟨?_, ?_, ?_⟩
  · rw [act_delivered]
    exact h.delivered
  · rw [act_peerLegs]
    intro i v hv
    cases x with
    | savePeerLeg v' =>
        obtain ⟨a, p, ha, hasked, hid, hstatus⟩ := hp
        simp only [ha, Table.get_set] at hv
        split at hv
        · next hi =>
          cases hv
          exact .inr ⟨p, h.delivered _ hasked, hid.trans hi.symm, hstatus.symm⟩
        · exact h.stored i v hv
    | latePeerLeg p =>
        simp only [Table.get_set] at hv
        split at hv
        · cases hv
        · exact h.stored i v hv
    | _ => exact h.stored i v hv
  · rw [act_attempt, act_peerLeg]
    intro a ha
    cases x with
    | adopt a' =>
        refine .inl ?_
        show w.mem.peerLeg.status = .unknown
        rw [hw.mem.peer hp.1]
    | savePeerLeg v =>
        obtain ⟨a', p, ha', hasked, hid, hstatus⟩ := hp
        obtain rfl := Option.some.inj (ha'.symm.trans ha)
        exact .inr ⟨p, h.delivered _ hasked, hid, hstatus.symm⟩
    | terminate reason => cases ha
    | _ => exact h.held a ha

theorem HeardIn.load {H : List Message} {c : Config} {d : Disk} {w : World}
    (hd : DiskSound c d) (h : ∀ i v, d.peerLegs.get i = some (.view v) →
      ToldIn H i v.status)
    (hload : load c d = some w) : HeardIn H w := by
  rw [load_eq hd] at hload
  cases hat : loadedAttempt c d with
  | none =>
      simp only [hat, Option.some.injEq] at hload
      subst hload
      exact ⟨fun _ hm => (nomatch hm), h, fun _ ha => nomatch ha⟩
  | some a =>
      simp only [hat, Option.map_eq_some_iff] at hload
      obtain ⟨peer, hpeer, rfl⟩ := hload
      refine ⟨fun _ hm => (nomatch hm), h, fun a' ha' => ?_⟩
      obtain rfl : a = a' := Option.some.inj ha'
      show ToldIn H a.attemptId peer.status
      unfold loadPeer at hpeer
      split at hpeer
      · cases hpeer
        exact .inl rfl
      · next v hv =>
        cases hpeer
        exact h _ _ hv
      · cases hpeer

/-- A process holds nothing of its peer that is not in an envelope of `H`. -/
inductive Proc.HeardIn (H : List Message) : Proc → Prop where
  | up {w : World} {todo : List Action} (h : PairCell.HeardIn H w) : HeardIn H (.up w todo)
  | down {c : Config} {d : Disk}
      (h : ∀ i v, d.peerLegs.get i = some (.view v) → ToldIn H i v.status) :
          HeardIn H (.down c d)

theorem HeardIn.mono {H H' : List Message} {w : World} (h : HeardIn H w)
    (hsub : ∀ m ∈ H, m ∈ H') : HeardIn H' w :=
  ⟨fun m hm => hsub m (h.delivered m hm), fun i v hv => (h.stored i v hv).mono hsub,
    fun a ha => (h.held a ha).mono hsub⟩

theorem Proc.HeardIn.mono {H H' : List Message} {p : Proc} (h : p.HeardIn H)
    (hsub : ∀ m ∈ H, m ∈ H') : p.HeardIn H' := by
  cases h with
  | up h => exact .up (h.mono hsub)
  | down h => exact .down fun i v hv => (h i v hv).mono hsub

/-- The envelope of a call that begins is in `H`. -/
theorem Proc.HeardIn.step {H : List Message} {p p' : Proc} {l : PairCell.Label}
    (h : p.HeardIn H) (hs : p.Sound) (hstep : Proc.Step p l p')
    (hcall : ∀ call script m, l = .begin call script → call.message? = some m → m ∈ H) :
    p'.HeardIn H := by
  cases hstep with
  | begin call script hfresh =>
      cases h with
      | up h => exact .up ⟨fun m hm => hcall call script m rfl hm, h.stored, h.held⟩
  | serve item script =>
      cases h with
      | up h => exact .up ⟨fun m hm => (nomatch hm), h.stored, h.held⟩
  | exec a todo =>
      cases h with
      | up h =>
          cases hs with
          | up hw htodo _ => exact .up (h.act hw htodo.1)
  | crash =>
      cases h with
      | up h => exact .down h.stored
  | reopen hload =>
      cases h with
      | down h =>
          cases hs with
          | down hd _ => exact .up (PairCell.HeardIn.load hd h hload)

/-- A cell says that it has no record of an attempt only when it is asked about it. -/
theorem no_record_ground {w : World} {p : LegStatus}
    (hp : Permits w (.relay (.legStatus p))) (hstatus : p.status = .noAttemptRecord) :
    w.disk.rowOf p.attemptId = none ∧
      w.script.delivered = some (.legStatusRequest p.attemptId) := by
  obtain ⟨hground, -⟩ := hp
  cases hground (by rw [hstatus]; decide) with
  | noRecord hr hasked => exact ⟨hr, hasked⟩
  | leg _ _ _ _ _ _ hne => exact absurd hstatus hne
  | terminal _ _ _ hne => exact absurd hstatus hne
  | reused _ _ _ _ _ _ hne => exact absurd hstatus hne

namespace Route

variable {s s' : Route} {l : Label} {side : Role} {i : Nat}

/-! ## The attempt before its probe -/

/-- No attempt is sent after a request for its status. -/
def InTime (s : Route) (side : Role) : Prop :=
  ∀ a, ¬ [.legStatusRequest a.attemptId, .attempt a].Sublist (s.wire side).sends

theorem pair_sublist_append {α : Type} {x y : α} {L K : List α} (hK : K.length ≤ 1)
    (h : [x, y].Sublist (L ++ K)) : [x, y].Sublist L ∨ x ∈ L ∧ y ∈ K := by
  obtain ⟨A, B, hAB, hA, hB⟩ := List.sublist_append_iff.1 h
  match A, B, hAB with
  | [], B, hAB =>
      have hlength := hB.length_le
      rw [List.nil_append] at hAB
      rw [← hAB] at hlength
      simp at hlength
      omega
  | [a], B, hAB =>
      simp only [List.cons_append, List.nil_append, List.cons.injEq] at hAB
      obtain ⟨rfl, rfl⟩ := hAB
      exact .inr ⟨List.singleton_sublist.1 hA, List.singleton_sublist.1 hB⟩
  | a :: b :: A, B, hAB =>
      simp only [List.cons_append, List.cons.injEq] at hAB
      obtain ⟨rfl, rfl, hnil⟩ := hAB
      obtain ⟨rfl, rfl⟩ := List.append_eq_nil_iff.1 hnil.symm
      exact .inl hA

theorem sent_length : (l.sent side).length ≤ 1 := by
  unfold Label.sent
  split
  · split <;> simp
  · simp

/-- A leg that was asked about is empty, and the attempt of an empty leg is not sent. -/
theorem attempt_unasked {w : World} {a : Attempt} (hw : PairCell.Sound w)
    (hh : History w.cfg w.disk) (hp : Permits w (.relay (.attempt a))) :
    .legStatusRequest a.attemptId ∉ w.disk.relayed := by
  intro hasked
  obtain ⟨-, ha, l, hl, -, -, hopen⟩ := hp
  obtain ⟨d, hd, hempty⟩ := hh.asked _ hasked
  obtain ⟨d', hd', hsync⟩ := hw.toBooked.stored ha hl
  obtain rfl := Option.some.inj (hd.symm.trans hd')
  rw [hsync.emptyVerified] at hopen
  exact Bool.false_ne_true (hopen.symm.trans hempty)

theorem InTime.step {routeId : Nat} (h : InTime s side) (hs : Sided routeId s side)
    (hfrom : FromCell s side) (hstep : Step s l s') : InTime s' side := by
  intro a hlate
  rw [hstep.wire, sends_after] at hlate
  obtain hold | ⟨hasked, hnew⟩ := pair_sublist_append sent_length hlate
  · exact h a hold
  · obtain ⟨requestId, ok, rfl⟩ | ⟨_, _, _, -, hother⟩ := sent_cases hnew
    · obtain ⟨w, todo, hp, -, hsound, hperm⟩ := hstep.exec hs.sound
      have hhistory := hs.history
      rw [hp] at hhistory
      obtain hrelayed | ⟨k, hk⟩ := hfrom _ hasked
      · rw [hp] at hrelayed
        exact attempt_unasked hsound hhistory hperm hrelayed
      · cases hk
    · cases hother

/-- A cell holds nothing of its peer that has not arrived. -/
def Heard (s : Route) (side : Role) : Prop :=
  (s.proc side).HeardIn (s.wire side.peer).arrived

theorem peer_peer (side : Role) : side.peer.peer = side := by
  cases side <;> rfl

theorem Heard.step {routeId : Nat} (h : Heard s side) (hs : Sided routeId s side)
    (hstep : Step s l s') : Heard s' side := by
  have harrived : ∀ m ∈ (s.wire side.peer).arrived, m ∈ (s'.wire side.peer).arrived := by
    rw [hstep.wire]
    exact fun m hm => (arrived_after _ _ _).subset hm
  have hmono := h.mono harrived
  obtain heq | ⟨l₀, requestId, ok, rfl, hproc⟩ := hstep.proc side
  · unfold Heard
    rw [heq]
    exact hmono
  · refine hmono.step hs.sound hproc ?_
    rintro call script m rfl hm
    have hl : (Label.cell side (.begin call script) requestId ok).arrival? =
        some (side.peer, m) := by
      simp [Label.arrival?, hm]
    rw [hstep.wire]
    refine (arrival_after hl (hstep.arrives hl)).subset ?_
    simp

/-! ## An attempt the follower has no record of -/

/-- The follower has no record of the attempt, and none is on its way any more. -/
structure Denied (s : Route) (i : Nat) : Prop where
  asked : .legStatusRequest i ∈ (s.wire .leader).arrived
  row : s.follower.disk.rowOf i = none
  coming : ∀ w todo a, s.follower = .up w todo → w.script.delivered = some (.attempt a) →
    a.attemptId ≠ i

/-- The follower's envelopes say nothing wrong about attempts it has no record of. -/
def Truthful (s : Route) : Prop :=
  ∀ p, .legStatus p ∈ (s.wire .follower).sends → p.status = .noAttemptRecord →
    Denied s p.attemptId

/-- The envelopes of the leader arrive in the order in which it sent them. -/
theorem coming_in_time {a : Attempt} (hordered : (s.wire .leader).line.Ordered)
    (htime : InTime s .leader)
    (hcame : ∃ before, .legStatusRequest a.attemptId ∈ before ∧
      before ++ [.attempt a] <+: (s.wire .leader).arrived) : False := by
  obtain ⟨before, hasked, hpre⟩ := hcame
  refine htime a (List.Sublist.trans ?_ (arrived_sublist hordered))
  exact ((List.singleton_sublist.2 hasked).append (List.Sublist.refl _)).trans hpre.sublist

theorem row_act {w : World} {x : Action} (hrole : w.cfg.role = .follower)
    (hp : Permits w x) (hcoming : ∀ a, w.script.delivered = some (.attempt a) →
      a.attemptId ≠ i)
    (h : w.disk.rowOf i = none) : (w.act x).disk.rowOf i = none := by
  rw [rowOf_eq_none] at h ⊢
  rw [act_attempts]
  cases x with
  | adopt a =>
      intro r hr
      obtain hr | hr := List.mem_append.1 hr
      · exact h r hr
      · rw [List.mem_singleton.1 hr]
        exact hcoming a (hp.2.2.2.2.1 hrole)
  | refuse a reason =>
      intro r hr
      obtain hr | hr := List.mem_append.1 hr
      · exact h r hr
      · rw [List.mem_singleton.1 hr]
        exact hcoming a hp.2.2
  | terminate reason =>
      intro r hr
      obtain ⟨q, hq, rfl⟩ := List.mem_map.1 hr
      rw [terminateRow_attempt]
      exact h q hq
  | _ => exact h

theorem Denied.step {routeId : Nat} (h : Denied s i) (hs : Sided routeId s .follower)
    (hordered : (s'.wire .leader).line.Ordered) (htime : InTime s' .leader)
    (hstep : Step s l s') : Denied s' i := by
  have harrived : (s.wire .leader).arrived <+: (s'.wire .leader).arrived := by
    rw [hstep.wire]
    exact arrived_after _ _ _
  have hasked := harrived.subset h.asked
  obtain heq | ⟨l₀, requestId, ok, rfl, hproc⟩ := hstep.proc .follower
  · have heq' : s'.follower = s.follower := heq
    exact ⟨hasked, by rw [heq']; exact h.row, by rw [heq']; exact h.coming⟩
  · have hold := h.asked
    have hsound := hs.sound
    have hrole := hs.cfg.1
    obtain ⟨-, hrow, hcoming⟩ := h
    change Proc.Step s.follower l₀ s'.follower at hproc
    change s.follower.Sound at hsound
    change s.follower.cfg.role = .follower at hrole
    generalize s.follower = p at hproc hsound hrole hrow hcoming
    generalize hp' : s'.follower = p' at hproc
    suffices hend : p'.disk.rowOf i = none ∧ ∀ w todo a, p' = .up w todo →
        w.script.delivered = some (.attempt a) → a.attemptId ≠ i from
      ⟨hasked, by rw [hp']; exact hend.1, by rw [hp']; exact hend.2⟩
    cases hproc with
    | begin call script hfresh =>
        refine ⟨hrow, ?_⟩
        rintro w todo a ⟨rfl, rfl⟩ hdelivered rfl
        have hl : (Label.cell .follower (.begin call script) requestId ok).arrival? =
            some (.leader, .attempt a) := by
          rw [Label.arrival?, show call.message? = some (.attempt a) from hdelivered]
          rfl
        refine coming_in_time hordered htime ⟨_, hold, ?_⟩
        rw [hstep.wire]
        exact arrival_after hl (hstep.arrives hl)
    | serve item script =>
        refine ⟨hrow, ?_⟩
        rintro w todo a ⟨rfl, rfl⟩ hdelivered
        cases hdelivered
    | exec x todo =>
        cases hsound with
        | up hw htodo _ =>
            refine ⟨row_act hrole htodo.1 (fun a => hcoming _ _ a rfl) hrow, ?_⟩
            rintro w todo a ⟨rfl, rfl⟩ hdelivered
            rw [act_delivered] at hdelivered
            exact hcoming _ _ a rfl hdelivered
    | crash => exact ⟨hrow, fun _ _ _ h => nomatch h⟩
    | reopen hload =>
        cases hsound with
        | down hd _ =>
            have hdisk := (load_idle hd hload).2.2
            refine ⟨by show (World.disk _).rowOf i = none; rw [hdisk]; exact hrow, ?_⟩
            rintro w todo a ⟨rfl, rfl⟩ hdelivered
            rw [load_script hd hload] at hdelivered
            cases hdelivered

theorem Truthful.step {routeId : Nat} (h : Truthful s) (hs : Sided routeId s .follower)
    (hheard : Heard s .follower) (hordered : (s'.wire .leader).line.Ordered)
    (htime : InTime s' .leader) (hstep : Step s l s') : Truthful s' := by
  intro p hp hstatus
  rw [hstep.wire, sends_after] at hp
  obtain hold | hnew := List.mem_append.1 hp
  · exact (h p hold hstatus).step hs hordered htime hstep
  · obtain ⟨requestId, ok, rfl⟩ | ⟨_, _, _, -, hother⟩ := sent_cases hnew
    · obtain ⟨w, todo, hw, -, -, hperm⟩ := hstep.exec hs.sound
      obtain ⟨hrow, hasked⟩ := no_record_ground hperm hstatus
      have hfollower : s.follower = .up w (.relay (.legStatus p) :: todo) := hw
      refine Denied.step ⟨?_, ?_, ?_⟩ hs hordered htime hstep
      · unfold Heard at hheard
        rw [hw] at hheard
        cases hheard with
        | up hheard => exact hheard.delivered _ hasked
      · rw [hfollower]
        exact hrow
      · rw [hfollower]
        rintro w' todo' a ⟨rfl, rfl⟩ hdelivered
        cases hasked.symm.trans hdelivered
    · cases hother

/-- What holds between the two sides while no envelope overtakes another. -/
structure Timely (s : Route) : Prop where
  ordered : ∀ r, (s.wire r).line.Ordered
  fromCell : ∀ r, FromCell s r
  inTime : ∀ r, InTime s r
  heard : ∀ r, Heard s r
  truthful : Truthful s

theorem timely_init (leaderId followerId routeId : Nat) :
    Timely (init leaderId followerId routeId) := by
  refine ⟨?_, ?_, ?_, ?_, ?_⟩
  · intro r
    cases r <;> exact List.Sublist.refl _
  · intro r m hm
    cases r <;> cases hm
  · intro r a hlate
    cases r <;> cases hlate
  · intro r
    cases r <;> exact .down fun _ _ hv => by simp [Table.get_empty] at hv
  · intro p hp
    cases hp

theorem reach_timely {i j routeId : Nat} (h : Reach Step Queued (init i j routeId) s) :
    Timely s := by
  induction h with
  | refl => exact timely_init i j routeId
  | tail l h hqueued hstep ih =>
      have hs := reach_sided h
      have hordered : ∀ r, ((_ : Route).wire r).line.Ordered := fun r => by
        rw [hstep.wire]
        exact ordered_after _ _ _ (ih.ordered r) fun call => hqueued r call
      have htime := fun r => (ih.inTime r).step (hs r) (ih.fromCell r) hstep
      refine ⟨hordered, ?_, htime, ?_, ?_⟩
      · exact fun r => (ih.fromCell r).step (hs r) hstep
      · exact fun r => (ih.heard r).step (hs r) hstep
      · exact ih.truthful.step (hs .follower) (ih.heard .follower) (hordered .leader)
          (htime .leader) hstep

end Route

end PairCell

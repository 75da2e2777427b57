import PairCell.Route.Active

/-!
# No mixed protection

Each side decides once whether its leg carries its half of the mirrored box or
keeps the rough protection, and gives the box up when the peer kept the rough
protection.  A pair that either cell counts as active is protected alike on both
sides, then and in every later state.
-/

namespace PairCell

open Lib World

variable {w : World} {x : Action} {i : Nat}

/-! ## One side -/

/-- The stored leg of the attempt has this protection status. -/
def ProtectedAs (d : Disk) (i : Nat) (st : ProtectionStatus) : Prop :=
  ∃ l, d.legs.get i = some l ∧ l.protectionStatus = st

theorem accepted_precise {st : ProtectionStatus} :
    acceptedPeerStatus st = some .protectionPrecise ↔ st = .precise := by
  cases st <;> simp [acceptedPeerStatus]

theorem accepted_fallback {st : ProtectionStatus} :
    acceptedPeerStatus st = some .protectionRoughFallback ↔ st = .fallback := by
  cases st <;> simp [acceptedPeerStatus]

theorem accepted_frozen {st : ProtectionStatus} :
    acceptedPeerStatus st = some .protectionFrozen ↔ st = .frozen := by
  cases st <;> simp [acceptedPeerStatus]

theorem LegSync.protectionStatus {l d : Leg} (h : LegSync l d) :
    l.protectionStatus = d.protectionStatus := by
  rw [h]

/-- The protection reported is the stored one. -/
theorem ProtectionGround.stored {p : LegStatus} (hw : Sound w) (h : ProtectionGround w p) :
    ∃ st, ProtectedAs w.disk p.attemptId st ∧ acceptedPeerStatus st = some p.status := by
  obtain ⟨a, l, ha, hid, hl, hstatus⟩ := h
  obtain ⟨d, hd, hsync⟩ := hw.toBooked.stored ha hl
  rw [hsync.protectionStatus] at hstatus
  exact ⟨d.protectionStatus, ⟨d, by rw [← hid]; exact hd, rfl⟩, hstatus⟩

/-- How the protection status of a stored leg moves on. -/
theorem act_protection (hw : Sound w) (hx : Permits w x) {st : ProtectionStatus}
    (h : ProtectedAs w.disk i st) : ∃ st', ProtectedAs (w.act x).disk i st' ∧
      (st' = st ∨ st = .rough ∧ (st' = .precise ∨ st' = .fallback) ∨
        st = .precise ∧ (st' = .fallback ∨ st' = .frozen) ∧
          ∃ p, w.script.delivered = some (.legStatus p) ∧ p.attemptId = i ∧
            acceptedPeerStatus st' = some p.status) := by
  obtain ⟨d, hd, rfl⟩ := h
  obtain ⟨l, hl, rfl | ⟨a, old, ha, hid, hsync, hstep⟩⟩ := act_leg_step hw hx hd
  · exact ⟨_, ⟨l, hl, rfl⟩, .inl rfl⟩
  · refine ⟨_, ⟨l, hl, rfl⟩, ?_⟩
    rw [← hsync.protectionStatus]
    cases hstep.protectionStatus with
    | kept hsame => exact .inl hsame
    | decided hold hnew => exact .inr (.inl ⟨hold, hnew⟩)
    | followed p hold hnew hasked hp hstatus =>
        exact .inr (.inr ⟨hold, hnew, p, hasked, hp.trans hid, hstatus⟩)

/-- Rough protection that was kept is kept for good. -/
theorem act_fallback (hw : Sound w) (hx : Permits w x)
    (h : ProtectedAs w.disk i .fallback) :
    ProtectedAs (w.act x).disk i .fallback := by
  obtain ⟨st, hst, rfl | ⟨hrough, -⟩ | ⟨hprecise, -⟩⟩ := act_protection hw hx h
  · exact hst
  · cases hrough
  · cases hprecise

theorem ProtectedAs.unique {d : Disk} {st st' : ProtectionStatus} (h : ProtectedAs d i st)
    (h' : ProtectedAs d i st') : st = st' := by
  obtain ⟨l, hl, rfl⟩ := h
  obtain ⟨l', hl', rfl⟩ := h'
  obtain rfl := Option.some.inj (hl.symm.trans hl')
  rfl

/-! ## Both sides -/

/-- Reports of the protection are true, up to what the peer has made this side give up. -/
structure Guarded (own peer : Disk) : Prop where
  unfrozen : ∀ n, ¬ProtectedAs own n .frozen
  unfrozenSent : ∀ p, .legStatus p ∈ own.relayed → p.status ≠ .protectionFrozen
  fallback : ∀ p, .legStatus p ∈ own.relayed → p.status = .protectionRoughFallback →
    ProtectedAs own p.attemptId .fallback
  precise : ∀ p, .legStatus p ∈ own.relayed → p.status = .protectionPrecise →
    ProtectedAs own p.attemptId .precise ∨
      ProtectedAs own p.attemptId .fallback ∧ ProtectedAs peer p.attemptId .fallback

/-- A box is given up only when the peer has none. -/
theorem act_precise {own peer : Disk} (hw : Sound w) (hx : Permits w x)
    (hown : w.disk = own) (hpeer : Guarded peer own)
    (hasked : ∀ p, w.script.delivered = some (.legStatus p) → .legStatus p ∈ peer.relayed)
    (h : ProtectedAs own i .precise) : ProtectedAs (w.act x).disk i .precise ∨
      ProtectedAs (w.act x).disk i .fallback ∧ ProtectedAs peer i .fallback := by
  subst hown
  obtain ⟨st, hst, rfl | ⟨hrough, -⟩ | ⟨-, rfl | rfl, p, hp, hid, hstatus⟩⟩ :=
    act_protection hw hx h
  · exact .inl hst
  · cases hrough
  · have hfallback := hpeer.fallback p (hasked p hp) (Option.some.inj hstatus).symm
    rw [hid] at hfallback
    exact .inr ⟨hst, hfallback⟩
  · exact absurd (Option.some.inj hstatus).symm (hpeer.unfrozenSent p (hasked p hp))

/-- The peer's reports, when this side acts. -/
theorem Guarded.act_peer {own : Disk} (hw : Sound w) (hx : Permits w x)
    (h : Guarded own w.disk) :
    Guarded own (w.act x).disk where
  unfrozen := h.unfrozen
  unfrozenSent := h.unfrozenSent
  fallback := h.fallback
  precise := fun p hp hstatus =>
    (h.precise p hp hstatus).imp_right fun hboth => ⟨hboth.1, act_fallback hw hx hboth.2⟩

theorem Guarded.act {peer : Disk} (hw : Sound w) (hx : Permits w x)
    (h : Guarded w.disk peer) (hpeer : Guarded peer w.disk)
    (hasked : ∀ p, w.script.delivered = some (.legStatus p) →
      .legStatus p ∈ peer.relayed) :
    Guarded (w.act x).disk peer := by
  have hsent : ∀ p, .legStatus p ∈ (w.act x).disk.relayed → p.status ∈ protectionStatuses →
      .legStatus p ∈ w.disk.relayed ∨ ∃ st, ProtectedAs (w.act x).disk p.attemptId st ∧
        ProtectedAs w.disk p.attemptId st ∧ acceptedPeerStatus st = some p.status := by
    intro p hp hstatus
    obtain hold | rfl := relayed_act hp
    · exact .inl hold
    · obtain ⟨st, hst, hacc⟩ := (hx.2.1 hstatus).stored hw
      exact .inr ⟨st, hst, hst, hacc⟩
  refine ⟨?_, ?_, ?_, ?_⟩
  · rintro n ⟨l, hl, hfrozen⟩
    cases hd : w.disk.legs.get n with
    | none =>
        have hmove := act_leg_move hw hx n
        rw [hd, hl] at hmove
        cases hmove with
        | first => cases hfrozen
    | some d =>
        obtain ⟨st, hst, hcases⟩ := act_protection hw hx ⟨d, hd, rfl⟩
        obtain rfl := hst.unique ⟨l, hl, hfrozen⟩
        obtain hsame | ⟨-, hnew⟩ | ⟨-, -, p, hp, -, hstatus⟩ := hcases
        · exact h.unfrozen n ⟨d, hd, hsame.symm⟩
        · obtain hnew | hnew := hnew <;> cases hnew
        · exact hpeer.unfrozenSent p (hasked p hp) (Option.some.inj hstatus).symm
  · intro p hp hstatus
    obtain hold | ⟨st, -, hst, hacc⟩ := hsent p hp (by rw [hstatus]; decide)
    · exact h.unfrozenSent p hold hstatus
    · rw [hstatus, accepted_frozen] at hacc
      subst hacc
      exact h.unfrozen _ hst
  · intro p hp hstatus
    obtain hold | ⟨st, hst, -, hacc⟩ := hsent p hp (by rw [hstatus]; decide)
    · exact act_fallback hw hx (h.fallback p hold hstatus)
    · rw [hstatus, accepted_fallback] at hacc
      subst hacc
      exact hst
  · intro p hp hstatus
    obtain hold | ⟨st, hst, -, hacc⟩ := hsent p hp (by rw [hstatus]; decide)
    · obtain hprecise | ⟨hown, hfallback⟩ := h.precise p hold hstatus
      · exact act_precise hw hx rfl hpeer hasked hprecise
      · exact .inr ⟨act_fallback hw hx hown, hfallback⟩
    · rw [hstatus, accepted_precise] at hacc
      subst hacc
      exact .inl hst

/-- Both legs of the attempt carry their halves of the box, or both kept the rough
protection. -/
def SameClass (own peer : Disk) (i : Nat) : Prop :=
  ∃ st, (st = .precise ∨ st = .fallback) ∧ ProtectedAs own i st ∧ ProtectedAs peer i st

theorem SameClass.symm {own peer : Disk} (h : SameClass own peer i) :
    SameClass peer own i := by
  obtain ⟨st, hst, hown, hpeer⟩ := h
  exact ⟨st, hst, hpeer, hown⟩

/-- An action of this side leaves the class of both legs as it is. -/
theorem SameClass.kept {peer : Disk} (hw : Sound w) (hx : Permits w x)
    (hpeer : Guarded peer w.disk)
    (hasked : ∀ p, w.script.delivered = some (.legStatus p) → .legStatus p ∈ peer.relayed)
    (h : SameClass w.disk peer i) {st : ProtectionStatus} (hst : ProtectedAs w.disk i st) :
    ProtectedAs (w.act x).disk i st := by
  obtain ⟨st', hclass, hown, hother⟩ := h
  obtain rfl := hst.unique hown
  obtain rfl | rfl := hclass
  · obtain hprecise | ⟨-, hfallback⟩ := act_precise hw hx rfl hpeer hasked hst
    · exact hprecise
    · cases hother.unique hfallback
  · exact act_fallback hw hx hst

theorem SameClass.act {peer : Disk} (hw : Sound w) (hx : Permits w x)
    (hpeer : Guarded peer w.disk)
    (hasked : ∀ p, w.script.delivered = some (.legStatus p) → .legStatus p ∈ peer.relayed)
    (h : SameClass w.disk peer i) : SameClass (w.act x).disk peer i := by
  obtain ⟨st, hclass, hown, hother⟩ := h
  exact ⟨st, hclass, SameClass.kept hw hx hpeer hasked ⟨st, hclass, hown,
    hother⟩ hown, hother⟩

/-! ## Observed prices -/

/-- The prices last seen on the leg are those of its protection, up to some tick. -/
def ShowsProtection (a : Attempt) (l : Leg) : Prop :=
  ∃ tick, sameProtectionPrice (expectedProtection a l).1 l.observedSl tick = true ∧
    sameProtectionPrice (expectedProtection a l).2 l.observedTp tick = true

def Shown (d : Disk) (i : Nat) : Prop :=
  ∃ row ∈ d.attempts, row.attempt.attemptId = i ∧
    ∃ l, d.legs.get i = some l ∧ ShowsProtection row.attempt l

theorem ShowsProtection.congr {a : Attempt} {l d : Leg} (h : ShowsProtection a d)
    (hrole : l.role = d.role) (hstatus : l.protectionStatus = d.protectionStatus)
    (hprices : l.preciseSl = d.preciseSl ∧ l.preciseTp = d.preciseTp)
    (hobserved : l.observedSl = d.observedSl ∧ l.observedTp = d.observedTp) :
    ShowsProtection a l := by
  obtain ⟨tick, hsl, htp⟩ := h
  have hexpected : expectedProtection a l = expectedProtection a d := by
    unfold expectedProtection
    rw [hstatus, hrole, hprices.1, hprices.2]
  refine ⟨tick, ?_, ?_⟩
  · rw [hexpected, hobserved.1]
    exact hsl
  · rw [hexpected, hobserved.2]
    exact htp

theorem LegSync.showsProtection {a : Attempt} {l d : Leg} (h : LegSync l d) :
    ShowsProtection a l ↔ ShowsProtection a d := by
  unfold LegSync at h
  constructor
  · intro hl
    exact hl.congr (by rw [h]) (by rw [h]) ⟨by rw [h], by rw [h]⟩ ⟨by rw [h], by rw [h]⟩
  · intro hd
    exact hd.congr (by rw [h]) (by rw [h]) ⟨by rw [h], by rw [h]⟩ ⟨by rw [h], by rw [h]⟩

/-- A filled leg whose protection is decided is only seen with the prices of that
protection. -/
theorem LegStep.showsProtection {a : Attempt} {old l : Leg} (h : LegStep w a old l)
    (hfilled : old.entryStatus = .filled) (hdecided : old.protectionStatus ≠ .rough)
    (hkept : l.protectionStatus = old.protectionStatus) (hold : ShowsProtection a old) :
    ShowsProtection a l := by
  have hprices : l.preciseSl = old.preciseSl ∧ l.preciseTp = old.preciseTp := by
    obtain hrough | hchanged | hprices := h.prices
    · exact absurd hrough hdecided
    · exact absurd hkept hchanged
    · exact hprices
  obtain hrough | hopen | hsame | hprotects := h.observed
  · exact absurd hrough hdecided
  · exact absurd hfilled hopen
  · exact hold.congr h.role hkept hprices hsame
  · exact ⟨_, hprotects⟩

theorem Shown.act (hw : Sound w) (hx : Permits w x) (hfilled : Filled w.disk i)
    (hkept : ∃ st, st ≠ .rough ∧ ProtectedAs w.disk i st ∧ ProtectedAs (w.act x).disk i st)
    (h : Shown w.disk i) : Shown (w.act x).disk i := by
  obtain ⟨row, hrow, hid, d, hd, hshown⟩ := h
  obtain ⟨row', hrow', heq⟩ := act_row_stays x ⟨row, hrow, rfl⟩
  obtain ⟨l, hl, hstep⟩ := act_leg_step hw hx hd
  refine ⟨row', hrow', by rw [heq]; exact hid, l, hl, ?_⟩
  rw [heq]
  obtain rfl | ⟨a, old, ha, ha', hsync, hstep⟩ := hstep
  · exact hshown
  · obtain ⟨live, hlive, rfl, -⟩ := hw.mem.live a ha
    obtain rfl := row_unique hw.disk.ids hrow hlive (hid.trans ha'.symm)
    obtain ⟨st, hrough, ⟨d', hd', hbefore⟩, ⟨l', hl', hafter⟩⟩ := hkept
    obtain rfl := Option.some.inj (hd.symm.trans hd')
    obtain rfl := Option.some.inj (hl.symm.trans hl')
    obtain ⟨d', hd', hfill⟩ := hfilled
    obtain rfl := Option.some.inj (hd.symm.trans hd')
    have hstatus := hsync.protectionStatus.trans hbefore
    refine hstep.showsProtection (by rw [hsync.entryStatus]; exact hfill) ?_
      (hafter.trans hstatus.symm)
      (hsync.showsProtection.2 hshown)
    rw [hstatus]
    exact hrough

namespace Route

variable {s : Route} {r : Role} {c : Role → Config} {ok : Route → Label → Prop}
  {leaderId followerId routeId : Nat}

theorem Joined.status_delivered (h : Joined c s) {todo : List Action}
    (hp : s.proc r = .up w todo) (p : LegStatus)
    (hasked : w.script.delivered = some (.legStatus p)) :
    .legStatus p ∈ (s.proc r.peer).disk.relayed :=
  h.delivered hp hasked fun _ hk => nomatch hk

theorem reach_guarded (h : Reach Step ok (init leaderId followerId routeId) s) (r : Role) :
    Guarded (s.proc r).disk (s.proc r.peer).disk := by
  refine reach_both (P := fun _ own peer => Guarded own peer) h ?_ ?_ r
  · intro r
    refine ⟨?_, fun p hp => (nomatch hp), fun p hp => (nomatch hp), fun p hp => nomatch hp⟩
    rintro n ⟨l, hl, -⟩
    simp at hl
  · intro t r w x todo ht hp hw hx ih
    have hown := ih r
    have hpeer := ih r.peer
    rw [peer_peer] at hpeer
    rw [hp] at hown hpeer
    exact ⟨hown.act hw hx hpeer ((reach_joined ht).status_delivered hp),
      hpeer.act_peer hw hx⟩

/-- When a cell declares its pair active, the peer's leg is protected as its own is. -/
theorem active_class (h : Reach Step ok (init leaderId followerId routeId) s)
    {todo : List Action} (hp : s.proc r = .up w todo) (hw : PairCell.Sound w)
    {a : Attempt} {l : Leg} (hactive : ActiveGround w a l) :
    SameClass w.disk (s.proc r.peer).disk a.attemptId := by
  obtain ⟨d, hd, hsync⟩ := hw.toBooked.stored hactive.attempt hactive.leg
  have hown : ProtectedAs w.disk a.attemptId l.protectionStatus :=
    ⟨d, hd, hsync.protectionStatus.symm⟩
  have hpeer := reach_guarded h r.peer
  rw [peer_peer, hp] at hpeer
  have hagreed := hactive.agreed
  have htold := (reach_joined h).told hp hactive.attempt
  cases hst : l.protectionStatus with
  | rough =>
      rw [hst] at hagreed
      cases hagreed
  | precise =>
      rw [hst] at hagreed hown
      have hstatus : w.mem.peerLeg.status = .protectionPrecise :=
        (Option.some.inj hagreed).symm
      obtain ⟨p, hsent, hid, hp'⟩ := htold (by simp [hstatus])
      have hprecise := hpeer.precise p hsent (hp'.trans hstatus)
      rw [hid] at hprecise
      obtain hprecise | ⟨-, hfallback⟩ := hprecise
      · exact ⟨.precise, .inl rfl, hown, hprecise⟩
      · cases hown.unique hfallback
  | fallback =>
      rw [hst] at hagreed hown
      have hstatus : w.mem.peerLeg.status = .protectionRoughFallback :=
        (Option.some.inj hagreed).symm
      obtain ⟨p, hsent, hid, hp'⟩ := htold (by simp [hstatus])
      have hfallback := hpeer.fallback p hsent (hp'.trans hstatus)
      rw [hid] at hfallback
      exact ⟨.fallback, .inr rfl, hown, hfallback⟩
  | frozen =>
      rw [hst] at hown
      have hguarded := reach_guarded h r
      rw [hp] at hguarded
      exact absurd hown (hguarded.unfrozen _)

/--
As long as a cell counts its pair as active, both stored legs are protected
alike, by the two halves of the box or by the rough protection, and the prices
last seen on its own leg are those of that protection.
-/
theorem active_pair_protected_alike
    (h : Reach Step anyLabel (init leaderId followerId routeId) s) (r : Role) (n : Nat)
    (hmarks : (s.proc r).Marks n) :
    SameClass (s.proc r).disk (s.proc r.peer).disk n ∧ Shown (s.proc r).disk n := by
  have hall := reach_active (F := fun own peer n =>
    SameClass own peer n ∧ Filled own n ∧ Shown own n) ?_ ?_ ?_ h r n hmarks
  · exact ⟨hall.1, hall.2.2⟩
  · rintro t r w x todo n ht hp hw hx ⟨hclass, hfilled, hshown⟩
    have hpeer := reach_guarded ht r.peer
    rw [peer_peer, hp] at hpeer
    have hasked := (reach_joined ht).status_delivered hp
    refine ⟨hclass.act hw hx hpeer hasked, hfilled.act hw hx, hshown.act hw hx hfilled ?_⟩
    obtain ⟨st, hdecided, hown, hother⟩ := hclass
    refine ⟨st, ?_, hown, SameClass.kept hw hx hpeer hasked ⟨st, hdecided,
      hown, hother⟩ hown⟩
    obtain rfl | rfl := hdecided <;> decide
  · rintro t r w x todo n ht hp hw hx ⟨hclass, hfilled, hshown⟩
    have hguarded := reach_guarded ht r.peer
    have hown := reach_guarded ht r
    rw [hp] at hown
    rw [peer_peer, hp] at hguarded
    exact ⟨(hclass.symm.act hw hx hguarded ((reach_joined ht).status_delivered hp)).symm,
      hfilled, hshown⟩
  · intro t r w todo a l ht hp hw hactive
    obtain ⟨d, hd, hsync⟩ := hw.toBooked.stored hactive.attempt hactive.leg
    obtain ⟨row, hrow, hattempt, -⟩ := hw.mem.live a hactive.attempt
    have hintended := (reach_paired ht).intended r
    rw [hp] at hintended
    refine ⟨active_class ht hp hw hactive, ?_, row, hrow, by rw [hattempt], d, hd, ?_⟩
    · cases hintended with
      | up hi =>
          exact (hi.confirmed a hactive.attempt hactive.confirmed
            (.inl (by simp [hactive.leg]))).1
    · rw [hattempt]
      exact hsync.showsProtection.1 ⟨_, hactive.observed⟩

theorem active_pair_protected_alike_paired : ∃ s, Reach Step anyLabel Sample.both s ∧
    ∀ r, SameClass (s.proc r).disk (s.proc r.peer).disk 100 ∧
      Shown (s.proc r).disk 100 := by
  obtain ⟨s, hrun, hmarks⟩ := Sample.paired_active
  exact ⟨s, hrun, fun r => active_pair_protected_alike hrun r 100 (hmarks r)⟩

end Route

end PairCell

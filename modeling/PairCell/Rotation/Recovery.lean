import PairCell.Lib.Runs
import PairCell.Rotation

/-!
# The identity on disk stays usable

A rotation is settled, or its journal is written and the identity still names
the retired key, or the identity is switched and the journal is still there.
In each of the three the identity names a stored key that the controller
accepts; the condition on the runs is what keeps a committed rotation out of
every other situation.
-/

namespace PairCell.Rotation

open Lib

/-! ## The three situations -/

/-- The controller still accepts the key of the identity as a previous one. -/
def World.Overlapped (w : World) (d : Nat) : Prop :=
  ∃ row ∈ w.controller.overlaps,
    w.keys.get w.identity = some row.publicKey ∧ w.controller.clock + d < row.expiresAt

def Settled (w : World) : Prop :=
  w.journal = none ∧ w.keys.get w.identity = some w.controller.publicKey

structure Switching (w : World) (j : Journal) : Prop where
  journal : w.journal = some j
  identity : w.identity = j.retiredKeyName
  distinct : j.retiredKeyName ≠ j.replacementKeyName
  replacement : w.keys.get j.replacementKeyName = some w.controller.publicKey
  overlapped : w.Overlapped 0

structure Switched (w : World) (j : Journal) : Prop where
  journal : w.journal = some j
  identity : w.identity = j.replacementKeyName
  distinct : j.retiredKeyName ≠ j.replacementKeyName
  current : w.keys.get w.identity = some w.controller.publicKey

/-- Certificates carry the key they were issued for, and a drawn name
is never drawn again. -/
structure Sound (w : World) : Prop where
  certificate : w.controller.certificate.publicKey = w.controller.publicKey
  overlaps : ∀ o ∈ w.controller.overlaps, o.certificate.publicKey = o.publicKey
  drawn : w.identity < w.drawn
  replacement : ∀ j, w.journal = some j → j.replacementKeyName < w.drawn

def Good (w : World) : Prop := Sound w ∧ (Settled w ∨ ∃ j, Switching w j ∨ Switched w j)

/-- The identity in memory is the one on disk, unless the journal explains the
difference. -/
def Matches (w : World) (held : Held) : Prop :=
  (w.journal = none → held.keyName = w.identity) ∧
  ∀ j, w.journal = some j → held.keyName = j.retiredKeyName ∨
    held.keyName = j.replacementKeyName ∧ w.identity = j.replacementKeyName

/-! ## What they give -/

theorem accepts_current {c : Controller} : c.Accepts c.publicKey :=
  ⟨c.certificate, by simp [Controller.workerForCertificate]⟩

theorem accepts_overlap {w : World} (h : Sound w) {row : Overlap}
    (hrow : row ∈ w.controller.overlaps) (hlt : w.controller.clock < row.expiresAt) :
    w.controller.Accepts row.publicKey := by
  refine ⟨row.certificate, ?_⟩
  unfold Controller.workerForCertificate
  split
  · next hcert =>
      rw [← h.certificate, ← hcert, h.overlaps row hrow]
  · have hsome : (w.controller.overlaps.find? fun o =>
        decide (o.certificate = row.certificate ∧
          w.controller.clock < o.expiresAt)).isSome := by
      rw [List.find?_isSome]
      exact ⟨row, hrow, by simp [hlt]⟩
    obtain ⟨found, hfound⟩ := Option.isSome_iff_exists.1 hsome
    have hmem := List.mem_of_find?_eq_some hfound
    have hcert : found.certificate = row.certificate := by
      have := List.find?_some hfound
      simp only [decide_eq_true_eq] at this
      exact this.1
    rw [hfound, Option.map_some, ← h.overlaps found hmem, hcert, h.overlaps row hrow]

/-- The key of the identity is stored and the controller accepts it. -/
def Usable (w : World) : Prop :=
  ∃ publicKey, w.keys.get w.identity = some publicKey ∧ w.controller.Accepts publicKey

theorem World.Overlapped.usable {w : World} {d : Nat} (h : w.Overlapped d) (hs : Sound w) :
    Usable w := by
  obtain ⟨row, hrow, hkey, hlt⟩ := h
  exact ⟨_, hkey, accepts_overlap hs hrow (by omega)⟩

theorem Good.usable {w : World} (h : Good w) : Usable w := by
  obtain ⟨hs, ⟨-, hkey⟩ | ⟨j, hj | hj⟩⟩ := h
  · exact ⟨_, hkey, accepts_current⟩
  · exact hj.overlapped.usable hs
  · exact ⟨_, hj.current, accepts_current⟩

/-! ## The condition on the runs -/

/-- Once the controller commits, the response arrives and is valid, the journal is written,
the identity is not refused, and all this takes less than the overlap. -/
def Outcomes.Switches (o : Outcomes) : Prop :=
  o.result .rotate = .ok → o.accepts = true →
    o.result .response = .ok ∧ o.validResponse = true ∧ o.result .writeJournal = .ok ∧
    o.result .saveIdentity ≠ .failed ∧
    o.elapsed .response + o.elapsed .writeJournal + o.elapsed .saveIdentity < hour

/-- While the journal waits for the identity to be switched, `d` seconds stay in the
overlap. -/
def World.InTime (w : World) (d : Nat) : Prop :=
  ∀ j ∈ w.journal, w.identity = j.retiredKeyName → w.Overlapped d

def Label.Prompt (s : Sys) : Label → Prop
  | .start | .stop => True
  | .tick d => s.world.InTime d
  | .maintain o _ _ =>
      o.Switches ∧ s.world.InTime (o.elapsed .readJournal + o.elapsed .recoverIdentity)

instance (w : World) (d : Nat) : Decidable (w.Overlapped d) :=
  inferInstanceAs (Decidable (∃ row ∈ w.controller.overlaps,
    w.keys.get w.identity = some row.publicKey ∧ w.controller.clock + d < row.expiresAt))

instance (w : World) (d : Nat) : Decidable (w.InTime d) :=
  inferInstanceAs
    (Decidable (∀ j ∈ w.journal, w.identity = j.retiredKeyName → w.Overlapped d))

instance (o : Outcomes) : Decidable o.Switches :=
  inferInstanceAs (Decidable (o.result .rotate = .ok → o.accepts = true →
    o.result .response = .ok ∧ o.validResponse = true ∧ o.result .writeJournal = .ok ∧
    o.result .saveIdentity ≠ .failed ∧
    o.elapsed .response + o.elapsed .writeJournal + o.elapsed .saveIdentity < hour))

instance (s : Sys) : ∀ l : Label, Decidable (l.Prompt s)
  | .start | .stop => isTrue trivial
  | .tick d => inferInstanceAs (Decidable (s.world.InTime d))
  | .maintain o _ _ => inferInstanceAs (Decidable (o.Switches ∧
      s.world.InTime (o.elapsed .readJournal + o.elapsed .recoverIdentity)))

/-! ## Time -/

section Time

variable {w : World} {d : Nat}

theorem Sound.elapse (h : Sound w) (d : Nat) : Sound (w.act (.elapse d)) :=
  ⟨h.certificate, h.overlaps, h.drawn, h.replacement⟩

theorem Switched.elapse {j : Journal} (h : Switched w j) (d : Nat) :
    Switched (w.act (.elapse d)) j :=
  ⟨h.journal, h.identity, h.distinct, h.current⟩

theorem World.Overlapped.elapse {e : Nat} (h : w.Overlapped (d + e)) :
    (w.act (.elapse d)).Overlapped e := by
  obtain ⟨row, hrow, hkey, hlt⟩ := h
  exact ⟨row, hrow, hkey, by simp only [World.act]; omega⟩

theorem World.Overlapped.mono {e : Nat} (h : w.Overlapped e) (hd : d ≤ e) :
    w.Overlapped d := by
  obtain ⟨row, hrow, hkey, hlt⟩ := h
  exact ⟨row, hrow, hkey, by omega⟩

theorem Switching.elapse {j : Journal} (h : Switching w j) (ht : w.Overlapped d) :
    Switching (w.act (.elapse d)) j :=
  ⟨h.journal, h.identity, h.distinct, h.replacement, World.Overlapped.elapse (e := 0) ht⟩

theorem Good.elapse (h : Good w) (ht : w.InTime d) : Good (w.act (.elapse d)) := by
  obtain ⟨hs, hset | ⟨j, hj | hj⟩⟩ := h
  · exact ⟨hs.elapse d, .inl hset⟩
  · exact ⟨hs.elapse d, .inr ⟨j, .inl (hj.elapse (ht j hj.journal hj.identity))⟩⟩
  · exact ⟨hs.elapse d, .inr ⟨j, .inr (hj.elapse d)⟩⟩

end Time

/-! ## Calls -/

section Calls

/-- The action leaves a usable identity. -/
abbrev LeavesUsable : World → Action → Prop := fun w a => Usable (w.act a)

/-- In each of its three ends the clock has moved on. -/
theorem wp_call {o : Outcomes} {p : Point} {e : Exn} {R : Except Exn Unit → World → Prop}
    {w : World} (hu : Usable (w.act (.elapse (o.elapsed p))))
    (hok : o.result p = .ok → R (.ok ()) (w.act (.elapse (o.elapsed p))))
    (hfail : o.result p = .failed → R (.error e) (w.act (.elapse (o.elapsed p))))
    (hkill : o.result p = .killed → R (.error .killed) (w.act (.elapse (o.elapsed p)))) :
    wp LeavesUsable (external o p e) R w := by
  simp only [external, wp_bind, wp_emit, next_ok]
  refine ⟨hu, ?_⟩
  cases hr : o.result p with
  | ok =>
      simp only [wp_pure]
      exact hok hr
  | failed =>
      simp only [wp_raise]
      exact hfail hr
  | killed =>
      simp only [wp_raise]
      exact hkill hr

/-- A call and what follows it. -/
theorem wp_external {β : Type} {o : Outcomes} {p : Point} {e : Exn} {f : Unit → M β}
    {R : Except Exn β → World → Prop} {w : World}
    (hu : Usable (w.act (.elapse (o.elapsed p))))
    (hok : o.result p = .ok → wp LeavesUsable (f ()) R (w.act (.elapse (o.elapsed p))))
    (hfail : o.result p = .failed → R (.error e) (w.act (.elapse (o.elapsed p))))
    (hkill : o.result p = .killed → R (.error .killed) (w.act (.elapse (o.elapsed p)))) :
    wp LeavesUsable (external o p e >>= f) R w := by
  rw [wp_bind]
  exact wp_call hu hok hfail hkill

/-- The same where the clock does not matter. -/
theorem wp_external_of {β : Type} {P : World → Prop} {o : Outcomes} {p : Point} {e : Exn}
    {f : Unit → M β} {R : Except Exn β → World → Prop} {w : World} (hw : P w)
    (hU : ∀ w, P w → Usable w) (hP : ∀ w d, P w → P (w.act (.elapse d)))
    (hR : ∀ e w, P w → R (.error e) w) (hok : ∀ w, P w → wp LeavesUsable (f ()) R w) :
    wp LeavesUsable (external o p e >>= f) R w :=
  wp_external (hU _ (hP w _ hw)) (fun _ => hok _ (hP w _ hw)) (fun _ => hR _ _ (hP w _ hw))
    (fun _ => hR _ _ (hP w _ hw))

theorem emits_external {K : Action → Prop} {o : Outcomes} {p : Point} {e : Exn}
    (hK : ∀ d, K (.elapse d)) : Emits K (external o p e) := by
  refine emits_bind (emits_emit (hK _)) fun _ => ?_
  split
  · exact emits_pure _
  · exact emits_raise _
  · exact emits_raise _

/-- Nothing but time and the list of retired keys. -/
def OnState : Action → Prop
  | .elapse _ | .writeState _ => True
  | _ => False

theorem emits_addRetiredKey (o : Outcomes) (read write : Point) (k t : Nat) :
    Emits OnState (addRetiredKey o read write k t) :=
  emits_bind (emits_external fun _ => trivial) fun _ => emits_bind emits_get fun _ =>
    emits_bind (emits_external fun _ => trivial) fun _ => emits_emit trivial

/-- Nothing but time, the list of retired keys and keys other than the active one. -/
def Cleans (active : Nat) : Action → Prop
  | .elapse _ | .writeState _ => True
  | .deleteKey name => name ≠ active
  | _ => False

theorem emits_attempt {α : Type} {K : Action → Prop} {m : M α} (h : Emits K m) :
    Emits K (attempt m) := h

theorem emits_deleteRetired (o : Outcomes) {active : Nat} {entry : Retired}
    (hne : entry.keyName ≠ active) : Emits (Cleans active) (deleteRetired o entry) := by
  refine emits_bind (emits_external fun _ => trivial) fun _ =>
    emits_bind emits_get fun w => ?_
  split
  · exact emits_raise _
  · refine emits_bind (emits_attempt (emits_bind (emits_external fun _ => trivial) fun _ =>
      emits_emit hne)) fun r => ?_
    split
    · exact emits_raise _
    · exact emits_pure _
    · exact emits_pure _

theorem emits_cleanRetired (o : Outcomes) (active observedAt : Nat)
    (entries : List Retired) :
    Emits (Cleans active) (cleanRetired o active observedAt entries) := by
  induction entries with
  | nil => exact emits_pure _
  | cons entry es ih =>
      unfold cleanRetired
      split
      · exact emits_bind ih fun r => emits_pure _
      · next hkeep =>
          exact emits_bind (emits_deleteRetired o fun h => hkeep (.inl h)) fun _ =>
            emits_bind ih fun r => emits_pure _

theorem emits_cleanRetiredKeys (o : Outcomes) (active observedAt : Nat) :
    Emits (Cleans active) (cleanRetiredKeys o active observedAt) := by
  refine emits_bind (emits_external fun _ => trivial) fun _ =>
    emits_bind emits_get fun w => ?_
  refine emits_bind (emits_cleanRetired o active observedAt w.retiredKeys) fun r => ?_
  obtain ⟨retained, changed⟩ := r
  dsimp only
  split
  · exact emits_bind (emits_external fun _ => trivial) fun _ => emits_emit trivial
  · exact emits_pure _

end Calls

/-! ## Recovery -/

section Specs

variable {w : World} {held : Held} {o : Outcomes} {j : Journal}

theorem Good.settled (h : Good w) (hj : w.journal = none) : Settled w := by
  obtain ⟨-, hset | ⟨j, hsw | hsw⟩⟩ := h
  · exact hset
  · exact absurd (hj.symm.trans hsw.journal) (by simp)
  · exact absurd (hj.symm.trans hsw.journal) (by simp)

theorem Good.pending (h : Good w) (hj : w.journal = some j) :
    Switching w j ∨ Switched w j := by
  obtain ⟨-, ⟨hnone, -⟩ | ⟨j', hsw⟩⟩ := h
  · simp [hj] at hnone
  · obtain rfl : j = j' := by
      obtain hsw | hsw := hsw
      · exact Option.some.inj (hj.symm.trans hsw.journal)
      · exact Option.some.inj (hj.symm.trans hsw.journal)
    exact hsw

theorem Switched.good (hs : Sound w) (h : Switched w j) : Good w := ⟨hs, .inr ⟨j, .inr h⟩⟩

theorem Switched.matches (h : Switched w j) (hk : held.keyName = j.retiredKeyName ∨
    held.keyName = j.replacementKeyName) : Matches w held := by
  refine ⟨fun hnone => by simp [h.journal] at hnone, fun j' hj' => ?_⟩
  obtain rfl := Option.some.inj (h.journal.symm.trans hj')
  exact hk.imp_right fun hk => ⟨hk, h.identity⟩

/-- The journal waits and the memory is one of its two keys. -/
def Waits (held : Held) (j : Journal) (w : World) : Prop :=
  Sound w ∧ Switched w j ∧
    (held.keyName = j.retiredKeyName ∨ held.keyName = j.replacementKeyName)

theorem Waits.elapse (h : Waits held j w) (d : Nat) : Waits held j (w.act (.elapse d)) :=
  ⟨h.1.elapse d, h.2.1.elapse d, h.2.2⟩

theorem Waits.kept (h : Waits held j w) : Good w ∧ Matches w held :=
  ⟨h.2.1.good h.1, h.2.1.matches h.2.2⟩

theorem Waits.usable (h : Waits held j w) : Usable w := h.kept.1.usable

theorem waits_addRetiredKey {read write : Point} {k t : Nat} (h : Waits held j w) :
    wp LeavesUsable (addRetiredKey o read write k t) (fun _ w' => Waits held j w') w := by
  refine wp_of_emits (emits_addRetiredKey o read write k t) (Waits held j) h ?_
    fun _ _ h => h
  intro w a hw ha
  suffices h : Waits held j (w.act a) from ⟨h.usable, h⟩
  cases a with
  | elapse d => exact hw.elapse d
  | writeState retired =>
      exact ⟨⟨hw.1.certificate, hw.1.overlaps, hw.1.drawn, hw.1.replacement⟩,
        ⟨hw.2.1.journal, hw.2.1.identity, hw.2.1.distinct, hw.2.1.current⟩, hw.2.2⟩
  | _ => exact ha.elim

/-- The journal is dropped. -/
theorem Waits.unlinked (h : Waits held j w) :
    Sound (w.act .unlinkJournal) ∧ Settled (w.act .unlinkJournal) :=
  ⟨⟨h.1.certificate, h.1.overlaps, h.1.drawn, fun _ hj => nomatch hj⟩, rfl, h.2.1.current⟩

theorem recoverIdentity_spec (h : Good w) (hm : Matches w held) (hj : w.journal = some j)
    (ht : w.InTime (o.elapsed .recoverIdentity)) :
    wp LeavesUsable (recoverIdentity o held.keyName j) (fun r w' =>
      (r = .ok () → Waits held j w') ∧ Good w' ∧ Matches w' held) w := by
  unfold recoverIdentity
  have hlate := h.elapse ht
  have hkeep : Matches (w.act (.elapse (o.elapsed .recoverIdentity))) held := hm
  split
  · next hret =>
      refine wp_external hlate.usable (fun _ => ?_) (fun _ => ⟨(nomatch ·), hlate, hkeep⟩)
        (fun _ => ⟨(nomatch ·), hlate, hkeep⟩)
      rw [wp_emit]
      have hwait : Waits held j ((w.act (.elapse (o.elapsed .recoverIdentity))).act
          (.saveIdentity j.replacementKeyName)) := by
        refine ⟨⟨h.1.certificate, h.1.overlaps, h.1.replacement j hj, h.1.replacement⟩,
          ?_, .inl hret⟩
        obtain hsw | hsw := h.pending hj
        · exact ⟨hj, rfl, hsw.distinct, hsw.replacement⟩
        · exact ⟨hj, rfl, hsw.distinct, hsw.identity ▸ hsw.current⟩
      exact ⟨hwait.usable, fun _ => hwait, hwait.kept⟩
  · next hret =>
      obtain hk | ⟨hk, hid⟩ := hm.2 j hj
      · exact absurd hk hret
      · have hsw : Switched w j := by
          obtain hsw | hsw := h.pending hj
          · exact absurd (hsw.identity.symm.trans hid) hsw.distinct
          · exact hsw
        simp only [hk, ne_eq, not_true, if_false, wp_pure]
        exact ⟨fun _ => ⟨h.1, hsw, .inr hk⟩, h, hm⟩

/-- A settled Worker whose memory names the identity. -/
def Rests (held : Held) (w : World) : Prop :=
  Sound w ∧ Settled w ∧ held.keyName = w.identity

theorem Rests.elapse (h : Rests held w) (d : Nat) : Rests held (w.act (.elapse d)) :=
  ⟨h.1.elapse d, h.2.1, h.2.2⟩

theorem Rests.kept (h : Rests held w) : Good w ∧ Matches w held := by
  refine ⟨⟨h.1, .inl h.2.1⟩, fun _ => h.2.2, fun j hj => ?_⟩
  exact absurd (h.2.1.1.symm.trans hj) (by simp)

theorem Rests.usable (h : Rests held w) : Usable w := h.kept.1.usable

/-- What a run leaves: the memory is in order unless the identity is read again. -/
def Kept (held : Held) (r : Except Exn Unit) (w : World) : Prop :=
  Good w ∧ ((∀ m, r ≠ .error (.certificateRotated m)) → Matches w held)

theorem kept_of {r : Except Exn Unit} (h : Good w ∧ Matches w held) : Kept held r w :=
  ⟨h.1, fun _ => h.2⟩

theorem recover_spec (h : Good w) (hm : Matches w held)
    (ht : w.InTime (o.elapsed .readJournal + o.elapsed .recoverIdentity)) :
    wp LeavesUsable (recoverPendingRotation o held.keyName) (fun r w' => Good w' ∧
      match r with
      | .ok false => Rests held w'
      | .ok true => True
      | .error _ => Matches w' held) w := by
  rw [recoverPendingRotation, wp_bind, wp_get, next_ok]
  split
  · next hj =>
      rw [wp_pure]
      exact ⟨h, h.1, h.settled hj, hm.1 hj⟩
  · next j hj =>
      have hlate : Good (w.act (.elapse (o.elapsed .readJournal))) :=
        h.elapse fun j hj hid => (ht j hj hid).mono (Nat.le_add_right ..)
      have hnext : (w.act (.elapse (o.elapsed .readJournal))).InTime
          (o.elapsed .recoverIdentity) := fun j hj hid => (ht j hj hid).elapse
      refine wp_external hlate.usable (fun _ => ?_) (fun _ => ⟨hlate, hm⟩)
        (fun _ => ⟨hlate, hm⟩)
      refine wp_then (recoverIdentity_spec hlate hm hj hnext) (fun _ w1 hw1 => ?_)
        (fun e w1 hw1 => hw1.2)
      refine wp_then (waits_addRetiredKey (hw1.1 rfl)) (fun _ w2 hw2 => ?_)
        (fun e w2 hw2 => hw2.kept)
      refine wp_external_of (P := Waits held j) hw2 (fun _ hw => hw.usable)
        (fun w d hw => hw.elapse d) (fun e w hw => hw.kept) fun w3 hw3 => ?_
      rw [wp_bind, wp_emit, next_ok, wp_pure]
      obtain ⟨hs, hset⟩ := hw3.unlinked
      have hgood : Good (w3.act .unlinkJournal) := ⟨hs, .inl hset⟩
      refine ⟨hgood.usable, hgood, ?_⟩
      by_cases hk : held.keyName = j.retiredKeyName
      · simp [hk]
      · have hrep := hw3.2.2.resolve_left hk
        simp only [beq_eq_false_iff_ne.2 hk]
        exact ⟨hs, hset, hrep.trans hw3.2.1.identity.symm⟩

theorem clean_spec {observedAt : Nat} (h : Rests held w) :
    wp LeavesUsable (cleanRetiredKeys o held.keyName observedAt)
      (fun _ w' => Rests held w') w := by
  refine wp_of_emits (emits_cleanRetiredKeys o held.keyName observedAt) (Rests held) h ?_
    fun _ _ h => h
  intro w a hw ha
  suffices h : Rests held (w.act a) from ⟨h.usable, h⟩
  obtain ⟨hs, ⟨hj, hkey⟩, hid⟩ := hw
  cases a with
  | elapse d => exact ⟨hs.elapse d, ⟨hj, hkey⟩, hid⟩
  | writeState retired =>
      exact ⟨⟨hs.certificate, hs.overlaps, hs.drawn, hs.replacement⟩, ⟨hj, hkey⟩, hid⟩
  | deleteKey name =>
      refine ⟨⟨hs.certificate, hs.overlaps, hs.drawn, hs.replacement⟩, ⟨hj, ?_⟩, hid⟩
      have hne : w.identity ≠ name := fun e => ha (e ▸ hid.symm)
      exact (Table.get_delete_eq_some ..).2 ⟨hkey, beq_eq_false_iff_ne.2 hne⟩
  | _ => exact ha.elim

/-! ## The rotation -/

/-- The replacement key is there and is not the identity's. -/
structure Spare (held : Held) (replacement : Nat) (w : World) : Prop where
  sound : Sound w
  journal : w.journal = none
  identity : held.keyName = w.identity
  other : w.identity ≠ replacement
  drawn : replacement < w.drawn

/-- Before the controller commits. -/
def Before (held : Held) (replacement publicKey : Nat) (w : World) : Prop :=
  Spare held replacement w ∧ w.keys.get w.identity = some w.controller.publicKey ∧
    w.keys.get replacement = some publicKey

/-- After it did, with `d` seconds of the overlap left. -/
def Committed (held : Held) (replacement : Nat) (d : Nat) (w : World) : Prop :=
  Spare held replacement w ∧ w.keys.get replacement = some w.controller.publicKey ∧
    w.Overlapped d

theorem Spare.elapse {replacement : Nat} (h : Spare held replacement w) (d : Nat) :
    Spare held replacement (w.act (.elapse d)) :=
  ⟨h.sound.elapse d, h.journal, h.identity, h.other, h.drawn⟩

theorem Before.elapse {replacement k : Nat} (h : Before held replacement k w) (d : Nat) :
    Before held replacement k (w.act (.elapse d)) :=
  ⟨h.1.elapse d, h.2⟩

theorem Before.rests {replacement k : Nat}
    (h : Before held replacement k w) : Rests held w :=
  ⟨h.1.sound, ⟨h.1.journal, h.2.1⟩, h.1.identity⟩

theorem Before.usable {replacement k : Nat} (h : Before held replacement k w) : Usable w :=
  h.rests.usable

theorem Committed.usable {replacement d : Nat}
    (h : Committed held replacement d w) : Usable w :=
  h.2.2.usable h.1.sound

theorem Committed.elapse {replacement d e : Nat}
    (h : Committed held replacement (d + e) w) :
    Committed held replacement e (w.act (.elapse d)) :=
  ⟨h.1.elapse d, h.2.1, h.2.2.elapse⟩

theorem Before.committed {replacement k d : Nat} (h : Before held replacement k w)
    (hd : d < hour) :
    Committed held replacement d ((w.act .popChallenge).act (.commitRotation k)) := by
  obtain ⟨hspare, hkey, hrep⟩ := h
  obtain ⟨hs, hj, hid, hother, hdrawn⟩ := hspare
  refine ⟨⟨⟨rfl, ?_, hs.drawn, hs.replacement⟩, hj, hid, hother, hdrawn⟩, hrep,
    ⟨w.controller.certificate, w.controller.publicKey, w.controller.clock + hour⟩,
    List.mem_cons_self .., hkey, ?_⟩
  · intro row hrow
    obtain rfl | hrow := List.mem_cons.1 hrow
    · exact hs.certificate
    · exact hs.overlaps row hrow
  · change w.controller.clock + d < w.controller.clock + hour
    omega

theorem rotate_spec {replacement k : Nat} (hsw : o.Switches)
    (h : Before held replacement k w) :
    wp LeavesUsable (rotate o k held.publicKey k) (fun r w' =>
      match r with
      | .ok _ => o.validResponse = true ∧ o.result .writeJournal = .ok ∧
          o.result .saveIdentity ≠ .failed ∧
          Committed held replacement (o.elapsed .writeJournal + o.elapsed .saveIdentity) w'
      | .error _ => Before held replacement k w') w := by
  unfold rotate
  refine wp_external (h.elapse _).usable (fun hreached => ?_) (fun _ => h.elapse _)
    (fun _ => h.elapse _)
  have hlate := h.elapse (o.elapsed .rotate)
  have hpop : Before held replacement k
      ((w.act (.elapse (o.elapsed .rotate))).act .popChallenge) :=
    ⟨⟨⟨hlate.1.sound.certificate, hlate.1.sound.overlaps, hlate.1.sound.drawn,
      hlate.1.sound.replacement⟩, hlate.1.journal, hlate.1.identity, hlate.1.other,
      hlate.1.drawn⟩, hlate.2⟩
  rw [wp_bind, wp_get, next_ok, wp_bind, wp_emit, next_ok]
  refine ⟨hpop.usable, ?_⟩
  split
  · next hproved =>
      have haccepts : o.accepts = true := (Bool.and_eq_true _ _ ▸ hproved).2
      obtain ⟨hresp, hvalid, hjournal, hsave, htime⟩ := hsw hreached haccepts
      have hc := hlate.committed htime
      rw [Nat.add_assoc] at hc
      rw [wp_bind, wp_emit, next_ok]
      refine ⟨hc.usable, wp_call hc.elapse.usable (fun _ => ?_) (fun hf => ?_)
        (fun hk => ?_)⟩
      · exact ⟨hvalid, hjournal, hsave, hc.elapse⟩
      · simp [hresp] at hf
      · simp [hresp] at hk
  · refine wp_external_of (P := Before held replacement k) hpop (fun _ hw => hw.usable)
      (fun w d hw => hw.elapse d) (fun _ _ hw => hw) fun w' hw' => ?_
    rw [wp_raise]
    exact hw'

/-- What the switch leaves: the identity is switched, or the process died on the way, or
nothing was committed. -/
theorem switchIdentity_spec {replacement k observedAt : Nat} (hsw : o.Switches)
    (h : Before held replacement k w) :
    wp LeavesUsable (switchIdentity o held replacement observedAt) (fun r w' =>
      match r with
      | .ok _ => Waits held ⟨held.keyName, replacement, observedAt + overlap⟩ w'
      | .error .killed => Good w' ∧ Matches w' held
      | .error _ => Rests held w' ∧ w'.identity ≠ replacement) w := by
  -- nothing is committed yet: whatever is raised is fine
  have early : ∀ (e : Exn) (w : World), Before held replacement k w →
      match (Except.error e : Except Exn Unit) with
      | .ok _ => Waits held ⟨held.keyName, replacement, observedAt + overlap⟩ w
      | .error .killed => Good w ∧ Matches w held
      | .error _ => Rests held w ∧ w.identity ≠ replacement := by
    intro e w hw
    cases e with
    | killed => exact hw.rests.kept
    | _ => exact ⟨hw.rests, hw.1.other⟩
  have usable : ∀ w : World, Before held replacement k w → Usable w :=
    fun _ hw => hw.usable
  have time : ∀ (w : World) (d : Nat), Before held replacement k w →
      Before held replacement k (w.act (.elapse d)) := fun w d hw => hw.elapse d
  unfold switchIdentity
  refine wp_external_of h usable time early fun w1 h1 => ?_
  rw [wp_bind, wp_get, next_ok, h1.2.2]
  refine wp_external_of h1 usable time early fun w2 h2 => ?_
  rw [wp_bind, wp_emit, next_ok]
  have h3 : Before held replacement k (w2.act (.issueChallenge k)) :=
    ⟨⟨⟨h2.1.sound.certificate, h2.1.sound.overlaps, h2.1.sound.drawn,
      h2.1.sound.replacement⟩, h2.1.journal, h2.1.identity, h2.1.other, h2.1.drawn⟩, h2.2⟩
  refine ⟨h3.usable, ?_⟩
  refine wp_external_of h3 usable time early fun w3 h3 => ?_
  have checked : ∀ (valid : Bool) (message : String) (w : World),
      Before held replacement k w →
      wp LeavesUsable (check valid message)
        (fun _ w' => Before held replacement k w') w := by
    intro valid message w hw
    unfold check
    split
    · rwa [wp_pure]
    · rwa [wp_raise]
  have hchallenge : wp LeavesUsable (checkChallenge o)
      (fun _ w' => Before held replacement k w') w3 :=
    wp_then (checked _ _ w3 h3) (fun _ w hw => checked _ _ w hw) fun _ _ hw => hw
  refine wp_then hchallenge (fun _ w4 h4 => ?_) early
  refine wp_external_of h4 usable time early fun w5 h5 => ?_
  refine wp_then (checked _ _ w5 h5) (fun _ w5 h5 => ?_) early
  refine wp_then (rotate_spec hsw h5) (fun _ w6 h6 => ?_) early
  obtain ⟨hvalid, hjournal, hsave, h6⟩ := h6
  rw [check, hvalid, if_pos rfl, wp_bind, wp_pure, next_ok]
  refine wp_external h6.elapse.usable (fun _ => ?_) (fun hf => ?_) (fun hk => ?_)
  · have h7 := h6.elapse
    rw [wp_bind, wp_emit, next_ok]
    generalize w6.act (.elapse (o.elapsed .writeJournal)) = w7 at h7 ⊢
    obtain ⟨⟨hs, hnone, hid, hother, hdrawn⟩, hrep, hover⟩ := h7
    have hdistinct : held.keyName ≠ replacement := hid ▸ hother
    have hsound :
        Sound (w7.act (.writeJournal ⟨held.keyName, replacement,
          observedAt + overlap⟩)) := by
      refine ⟨hs.certificate, hs.overlaps, hs.drawn, fun j hj => ?_⟩
      obtain rfl := Option.some.inj hj
      exact hdrawn
    have hpending : Switching
        (w7.act (.writeJournal ⟨held.keyName, replacement, observedAt + overlap⟩))
        ⟨held.keyName, replacement, observedAt + overlap⟩ :=
      ⟨rfl, hid.symm, hdistinct, hrep, World.Overlapped.mono hover (Nat.zero_le _)⟩
    have hlate := hpending.elapse hover
    refine ⟨hpending.overlapped.usable hsound, ?_⟩
    refine wp_external (hlate.overlapped.usable (hsound.elapse _)) (fun _ => ?_)
      (fun hf => absurd hf hsave) (fun _ => ?_)
    · rw [wp_emit]
      refine ⟨?_, ⟨hsound.certificate, hsound.overlaps, hdrawn, hsound.replacement⟩,
        ⟨rfl, rfl, hdistinct, hrep⟩, .inl rfl⟩
      exact ⟨_, hrep, accepts_current⟩
    · refine ⟨⟨hsound.elapse _, .inr ⟨_, .inl hlate⟩⟩, (nomatch ·), ?_⟩
      intro j hj
      obtain rfl := Option.some.inj hj
      exact .inl rfl
  · simp [hjournal] at hf
  · simp [hjournal] at hk

theorem retireKey_spec {j : Journal} {observedAt : Nat} (h : Waits held j w) :
    wp LeavesUsable (retireKey o held observedAt) (fun r w' =>
      Good w' ∧ (r ≠ .ok () → Matches w' held)) w := by
  unfold retireKey
  rw [wp_bind, wp_attempt]
  refine wp_mono (waits_addRetiredKey h) fun r w1 h1 => ?_
  rw [next_ok]
  have raised : ∀ (e : Exn) (w : World), Waits held j w →
      Good w ∧ ((Except.error e : Except Exn Unit) ≠ .ok () → Matches w held) :=
    fun e w hw => ⟨hw.kept.1, fun _ => hw.kept.2⟩
  split
  · rw [wp_raise]
    exact raised _ _ h1
  · rw [wp_raise]
    exact raised _ _ h1
  · refine wp_external_of h1 (fun _ hw => hw.usable) (fun w d hw => hw.elapse d) raised
      fun w2 h2 => ?_
    rw [wp_emit]
    obtain ⟨hs, hset⟩ := h2.unlinked
    have hgood : Good (w2.act .unlinkJournal) := ⟨hs, .inl hset⟩
    exact ⟨hgood.usable, hgood, fun hne => absurd rfl hne⟩

/-- The new key. -/
theorem Rests.created (h : Rests held w) :
    Before held w.drawn w.drawn (w.act .createKey) := by
  obtain ⟨hs, ⟨hj, hkey⟩, hid⟩ := h
  have hne : w.identity ≠ w.drawn := Nat.ne_of_lt hs.drawn
  refine ⟨⟨⟨hs.certificate, hs.overlaps, Nat.lt_succ_of_lt hs.drawn, ?_⟩, hj, hid, hne,
    Nat.lt_succ_self _⟩, ?_, Table.get_set_self ..⟩
  · intro j hj
    exact Nat.lt_succ_of_lt (hs.replacement j hj)
  · exact (Table.get_set_ne _ _ hne).trans hkey

/-- The `finally` block of a rotation that committed nothing. -/
theorem Rests.deleted {name : Nat} (h : Rests held w) (hne : w.identity ≠ name) :
    Rests held (w.act (.deleteKey name)) := by
  obtain ⟨hs, ⟨hj, hkey⟩, hid⟩ := h
  refine ⟨⟨hs.certificate, hs.overlaps, hs.drawn, hs.replacement⟩, ⟨hj, ?_⟩, hid⟩
  exact (Table.get_delete_eq_some ..).2 ⟨hkey, beq_eq_false_iff_ne.2 hne⟩

theorem rotateKey_spec {observedAt : Nat} (hsw : o.Switches) (h : Rests held w) :
    wp LeavesUsable (rotateKey o held observedAt) (Kept held) w := by
  unfold rotateKey
  rw [wp_bind, wp_get, next_ok, wp_bind, wp_attempt]
  refine wp_external (h.elapse _).usable (fun _ => ?_) (fun _ => ?_) (fun _ => ?_)
  · have hcreated := (h.elapse (o.elapsed .createKey)).created
    rw [wp_emit]
    refine ⟨hcreated.usable, ?_⟩
    rw [next_ok, wp_bind, wp_attempt]
    refine wp_mono (switchIdentity_spec hsw hcreated) fun r w1 h1 => ?_
    rw [next_ok]
    split
    · rw [wp_raise]
      exact kept_of h1
    · next e hne =>
        have hrest : Rests held w1 ∧ w1.identity ≠ w.drawn := by
          cases e with
          | killed => exact absurd rfl hne
          | _ => exact h1
        refine wp_external_of (P := fun w' => Rests held w' ∧ w'.identity ≠ w.drawn) hrest
          (fun _ hw => hw.1.usable) (fun w' d hw => ⟨hw.1.elapse d, hw.2⟩)
          (fun e w' hw => kept_of hw.1.kept) fun w2 h2 => ?_
        rw [wp_bind, wp_emit, next_ok, wp_raise]
        exact ⟨(h2.1.deleted h2.2).usable, kept_of (h2.1.deleted h2.2).kept⟩
    · rw [wp_bind, wp_attempt]
      refine wp_mono (retireKey_spec h1) fun r w2 h2 => ?_
      rw [next_ok]
      split
      · rw [wp_raise]
        exact kept_of ⟨h2.1, h2.2 (by simp)⟩
      · rw [wp_raise]
        exact ⟨h2.1, fun hno => absurd rfl (hno _)⟩
  · rw [next_ok, wp_raise]
    exact kept_of (h.elapse _).kept
  · rw [next_ok, wp_raise]
    exact kept_of (h.elapse _).kept

theorem maintain_spec {certificate : Option Certificate} {observedAt : Nat} (h : Good w)
    (hm : Matches w held) (hsw : o.Switches)
    (ht : w.InTime (o.elapsed .readJournal + o.elapsed .recoverIdentity)) :
    wp LeavesUsable (maintainWorkerCertificate o held certificate
      observedAt) (Kept held) w := by
  unfold maintainWorkerCertificate
  refine wp_then (recover_spec h hm ht) (fun switched w1 h1 => ?_)
    (fun e w1 h1 => kept_of h1)
  cases switched with
  | true =>
      rw [if_pos rfl, wp_raise]
      exact ⟨h1.1, fun hno => absurd rfl (hno _)⟩
  | false =>
      rw [if_neg (by simp)]
      refine wp_then (clean_spec h1.2) (fun _ w2 h2 => ?_) (fun e w2 h2 => kept_of h2.kept)
      split
      · rw [wp_raise]
        exact kept_of h2.kept
      · split
        · rw [wp_raise]
          exact kept_of h2.kept
        · split
          · rw [wp_pure]
            exact kept_of h2.kept
          · exact rotateKey_spec hsw h2

end Specs

/-! ## Whole runs -/

theorem load_matches {w : World} {held : Held} (h : Good w) (hl : w.load = some held) :
    Matches w held := by
  obtain ⟨k, -, rfl⟩ := Option.map_eq_some_iff.1 hl
  refine ⟨fun _ => rfl, fun j hj => ?_⟩
  obtain hsw | hsw := h.pending hj
  · exact .inl hsw.identity
  · exact .inr ⟨hsw.identity, hsw.identity⟩

def Safe (s : Sys) : Prop := Good s.world ∧ ∀ held, s.held = some held →
  Matches s.world held

theorem safe_enrolled : Safe enrolled := by
  have hs : Sound enrolled.world := by
    refine ⟨rfl, ?_, Nat.one_pos, ?_⟩
    · intro o ho
      exact nomatch ho
    · intro j hj
      exact nomatch hj
  exact ⟨⟨hs, .inl ⟨rfl, rfl⟩⟩, fun held h => nomatch h⟩

theorem Safe.maintained {s : Sys} {held : Held} (h : Safe s) (hheld : s.held = some held)
    {o : Outcomes} {certificate : Option Certificate} {observedAt : Nat} (hsw : o.Switches)
    (ht : s.world.InTime (o.elapsed .readJournal + o.elapsed .recoverIdentity)) :
    Safe (s.maintained held o certificate observedAt) := by
  have hrun :
      wp LeavesUsable (maintainWorkerCertificate o held certificate observedAt) (Kept held)
      s.world := maintain_spec h.1 (h.2 held hheld) hsw ht
  obtain ⟨-, hgood, hmatches⟩ := hrun
  refine ⟨hgood, fun held' hh => ?_⟩
  unfold Sys.maintained at hh
  dsimp only at hh
  split at hh
  · exact load_matches hgood hh
  · exact nomatch hh
  · next hrotated hkilled =>
      obtain rfl := Option.some.inj hh
      exact hmatches hrotated

theorem Safe.next {s : Sys} (h : Safe s) (l : Label) (hl : l.Prompt s) :
    Safe (next s l) := by
  cases l with
  | start => exact ⟨h.1, fun held hh => load_matches h.1 hh⟩
  | stop => exact ⟨h.1, fun held hh => nomatch hh⟩
  | tick d => exact ⟨h.1.elapse hl, h.2⟩
  | maintain o certificate observedAt =>
      cases hheld : s.held with
      | none =>
          simp only [Rotation.next, hheld]
          exact h
      | some held =>
          simp only [Rotation.next, hheld]
          exact h.maintained hheld hl.1 hl.2

/-- Every single action of a prompt step leaves a usable identity. -/
theorem Safe.actions {s : Sys} (h : Safe s) {l : Label} (hl : l.Prompt s) :
    Allowed LeavesUsable s.world (s.actions l) := by
  cases l with
  | start => trivial
  | stop => trivial
  | tick d => exact ⟨(h.1.elapse hl).usable, trivial⟩
  | maintain o certificate observedAt =>
      cases hheld : s.held with
      | none =>
          simp only [Sys.actions, hheld]
          trivial
      | some held =>
          simp only [Sys.actions, hheld]
          exact (maintain_spec h.1 (h.2 held hheld) hl.1 hl.2).1

/-- In every run whose steps are prompt, every state reached, also between two actions of a
step, has an identity on disk whose key is in the key store and accepted by the
controller. -/
theorem identity_stays_usable {s : Sys}
    (h : Reach (fun s l t => t = next s l) (fun s l => l.Prompt s) enrolled s) :
    Usable s.world ∧ ∀ l : Label, l.Prompt s → ∀ done, done <+: s.actions l →
      Usable (after s.world done) := by
  have hsafe : Safe s := h.invariant safe_enrolled fun s l t hs hl hstep =>
    hstep ▸ hs.next l hl
  exact ⟨hsafe.1.usable, fun l hl _ hdone =>
    (hsafe.actions hl).of_initial hsafe.1.usable hdone⟩

/-- A certificate past its half-life. -/
def Sample.maintain (o : Outcomes) : Label :=
  .maintain o (some ⟨0, 0, 30 * day⟩) (16 * day)

/-- The process dies after the journal is written and before the identity is; half an hour
later it starts again and recovers. -/
def Sample.recovers : List Label :=
  [.start, Sample.maintain
    { result := fun p => if p = .saveIdentity then .killed else .ok }, .tick 1800, .start,
    Sample.maintain {}]

theorem recovered_identity_usable :
    let s := Sample.recovers.foldl next enrolled
    s.world.identity = 1 ∧ s.world.journal = none ∧ Usable s.world := by
  refine ⟨by decide +kernel, by decide +kernel, ?_⟩
  have hrun : Along next (fun s l => Label.Prompt s l) enrolled Sample.recovers := by
    decide +kernel
  exact (identity_stays_usable hrun.reach).1

/-- The identity file cannot be written once. -/
def Sample.refused : List Label :=
  [.start, Sample.maintain
    { result := fun p => if p = .saveIdentity then .failed else .ok }, Sample.maintain {}]

/-- The cleanup deletes the new key although the journal names it, and the next recovery
makes it the identity. -/
theorem recovery_names_deleted_key :
    ¬Usable (Sample.refused.foldl next enrolled).world := by
  have hid : (Sample.refused.foldl next enrolled).world.identity = 1 := by decide +kernel
  have hkey : (Sample.refused.foldl next enrolled).world.keys.get 1 = none := by
    decide +kernel
  rintro ⟨k, hk, -⟩
  rw [hid, hkey] at hk
  cases hk

end PairCell.Rotation

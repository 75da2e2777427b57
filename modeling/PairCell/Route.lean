import PairCell.Stored

/-!
# Two cells on a route

The two workers of a route, each with the outbox of its relay.  The controller
forwards the envelopes that a session accepted in the order it accepted them;
some of them it may lose.
-/

namespace PairCell

open Lib World

structure Wire where
  line : RelayLine Message := {}
  /-- How many of the envelopes handed over have reached the peer or are lost. -/
  taken : Nat := 0

namespace Wire

variable (v : Wire)

def next : Option Message := v.line.handed[v.taken]?.map WireEnvelope.payload

/-- The envelopes that have reached the peer or are lost, oldest first. -/
def arrived : List Message := (v.line.handed.take v.taken).map WireEnvelope.payload

def sends : List Message := v.line.sends.map WireEnvelope.payload

end Wire

/-- The processes of the two workers and what each of them puts on the wire. -/
structure Route where
  leader : Proc
  follower : Proc
  leaderWire : Wire := {}
  followerWire : Wire := {}

namespace Route

def proc (s : Route) : Role → Proc
  | .leader => s.leader
  | .follower => s.follower

def wire (s : Route) : Role → Wire
  | .leader => s.leaderWire
  | .follower => s.followerWire

def withProc (s : Route) : Role → Proc → Route
  | .leader, p => { s with leader := p }
  | .follower, p => { s with follower := p }

inductive Label where
  /-- A step of one side; the session takes or refuses the envelope it sends,
  if it sends one. -/
  | cell (side : Role) (l : PairCell.Label) (requestId : Nat) (ok : Bool)
  | publish (side : Role) (kind : Kind) (requestId : Nat) (ok : Bool)
  | flush (side : Role) (oks : List Bool)
  /-- The next envelope of the side does not reach its peer. -/
  | lose (side : Role)

namespace Label

/-- The relay call of a step, and whose relay it is. -/
def call? : Label → Option (Role × RelayCall Message)
  | .cell side (.exec (.relay m)) requestId ok =>
      some (side, .send ⟨requestId, m.kind, m⟩ ok)
  | .publish side kind requestId ok => some (side, .send ⟨requestId, kind, .other kind⟩ ok)
  | .flush side oks => some (side, .flush oks)
  | _ => none

/-- The envelope a step hands to a cell, and whose envelope it is. -/
def arrival? : Label → Option (Role × Message)
  | .cell side (.begin call _) _ _ => call.message?.map fun m => (side.peer, m)
  | _ => none

/-- The step takes an envelope of the side off the wire. -/
def takes (l : Label) (side : Role) : Bool :=
  match l with
  | .lose r => decide (r = side)
  | _ => l.arrival?.any fun x => decide (x.1 = side)

def crashes (l : Label) (side : Role) : Bool :=
  match l with
  | .cell r .crash _ _ => decide (r = side)
  | _ => false

end Label

/-- The line of one side after a step; the outbox is in the memory of its process. -/
def lineAfter (line : RelayLine Message) (side : Role) (l : Label) : RelayLine Message :=
  match l.call? with
  | some (r, call) => if r = side then line.step call else line
  | none => if l.crashes side then { line with relay := {} } else line

def wireAfter (v : Wire) (side : Role) (l : Label) : Wire where
  line := lineAfter v.line side l
  taken := if l.takes side then v.taken + 1 else v.taken

/-- What a step makes of the two wires. -/
def onWires (s : Route) (l : Label) : Route :=
  { s with
    leaderWire := wireAfter s.leaderWire .leader l
    followerWire := wireAfter s.followerWire .follower l }

inductive Step : Route → Label → Route → Prop where
  | cell {s : Route} {side : Role} {l : PairCell.Label} {p : Proc}
      (requestId : Nat) (ok : Bool)
      (hstep : Proc.Step (s.proc side) l p)
      (harrives : ∀ r m, (Label.cell side l requestId ok).arrival? = some (r, m) →
        (s.wire r).next = some m) :
      Step s (.cell side l requestId ok)
        ((s.withProc side p).onWires (.cell side l requestId ok))
  | publish {s : Route} {side : Role} {w : World} {todo : List Action} (kind : Kind)
      (requestId : Nat) (ok : Bool) (hup : s.proc side = .up w todo) :
      Step s (.publish side kind requestId ok)
          (s.onWires (.publish side kind requestId ok))
  | flush {s : Route} {side : Role} {w : World} (oks : List Bool)
      (hup : s.proc side = .up w []) :
      Step s (.flush side oks) (s.onWires (.flush side oks))
  | lose {s : Route} {side : Role} {m : Message} (hnext : (s.wire side).next = some m) :
      Step s (.lose side) (s.onWires (.lose side))

def init (leaderId followerId routeId : Nat) : Route where
  leader := .init ⟨leaderId, .leader, routeId⟩
  follower := .init ⟨followerId, .follower, routeId⟩

/-- No envelope is handed over past one that waits in the outbox of the same side. -/
def Queued (s : Route) (l : Label) : Prop :=
  ∀ side call, l.call? = some (side, call) → (s.wire side).line.Waits call

/-! ## One side of a step -/

variable {s s' : Route} {l : Label} {side : Role}

@[simp] theorem proc_onWires (s : Route) (l : Label) :
    (s.onWires l).proc side = s.proc side := by
  cases side <;> rfl

@[simp] theorem wire_onWires (s : Route) (l : Label) :
    (s.onWires l).wire side = wireAfter (s.wire side) side l := by
  cases side <;> rfl

@[simp] theorem wire_withProc (s : Route) (r : Role) (p : Proc) :
    (s.withProc r p).wire side = s.wire side := by
  cases side <;> cases r <;> rfl

theorem proc_withProc (s : Route) (r : Role) (p : Proc) :
    (s.withProc r p).proc side = if side = r then p else s.proc side := by
  cases side <;> cases r <;> rfl

theorem Step.wire (h : Step s l s') (side : Role) :
    s'.wire side = wireAfter (s.wire side) side l := by
  cases h <;> simp

theorem Step.proc (h : Step s l s') (side : Role) :
    s'.proc side = s.proc side ∨ ∃ l₀ requestId ok,
      l = .cell side l₀ requestId ok ∧ Proc.Step (s.proc side) l₀ (s'.proc side) := by
  cases h with
  | @cell r l₀ p requestId ok hstep _ =>
      rw [proc_onWires, proc_withProc]
      by_cases hside : side = r
      · subst hside
        rw [if_pos rfl]
        exact .inr ⟨l₀, requestId, ok, rfl, hstep⟩
      · rw [if_neg hside]
        exact .inl rfl
  | publish => exact .inl (proc_onWires ..)
  | flush => exact .inl (proc_onWires ..)
  | lose => exact .inl (proc_onWires ..)

theorem Step.arrives (h : Step s l s') {r : Role} {m : Message}
    (hl : l.arrival? = some (r, m)) :
    (s.wire r).next = some m := by
  cases h with
  | cell requestId ok hstep harrives => exact harrives r m hl
  | publish => cases hl
  | flush => cases hl
  | lose => cases hl

/-- Each worker of a run goes through a run of its own. -/
theorem reach_proc {ok : Route → Label → Prop} (h : Reach Step ok s s') (side : Role) :
    Reach Proc.Step anyStep (s.proc side) (s'.proc side) := by
  induction h with
  | refl => exact .refl
  | tail l _ _ hstep ih =>
      obtain heq | ⟨l₀, _, _, -, hproc⟩ := hstep.proc side
      · rwa [heq]
      · exact .tail l₀ ih trivial hproc

/-! ## Envelopes of one side -/

def Label.sent (l : Label) (side : Role) : List Message :=
  match l.call? with
  | some (r, .send e _) => if r = side then [e.payload] else []
  | _ => []

theorem sends_after (v : Wire) (side : Role) (l : Label) :
    (wireAfter v side l).sends = v.sends ++ l.sent side := by
  simp only [wireAfter, lineAfter, Wire.sends, Label.sent]
  rcases l.call? with _ | ⟨r, call⟩
  · dsimp only
    split <;> simp
  · dsimp only
    by_cases hr : r = side
    · cases call <;> simp [hr, RelayLine.step]
    · cases call <;> simp [hr]

theorem step_handed (line : RelayLine Message) (call : RelayCall Message) :
    line.handed <+: (line.step call).handed := by
  cases call <;> exact List.prefix_append _ _

theorem handed_after (v : Wire) (side : Role) (l : Label) :
    v.line.handed <+: (wireAfter v side l).line.handed := by
  simp only [wireAfter, lineAfter]
  rcases l.call? with _ | ⟨r, call⟩
  · dsimp only
    split <;> exact List.prefix_rfl
  · dsimp only
    split
    · exact step_handed _ _
    · exact List.prefix_rfl

theorem arrived_after (v : Wire) (side : Role) (l : Label) :
    v.arrived <+: (wireAfter v side l).arrived := by
  have htaken : v.taken ≤ (wireAfter v side l).taken := by
    simp only [wireAfter]
    split <;> omega
  refine List.IsPrefix.map _ (List.prefix_take_iff.2 ⟨?_, ?_⟩)
  · exact (List.take_prefix _ _).trans (handed_after v side l)
  · exact (List.length_take_le _ _).trans htaken

/-- An envelope that a step hands to a cell has arrived. -/
theorem arrival_after {m : Message} (hl : l.arrival? = some (side, m)) {v : Wire}
    (hnext : v.next = some m) : v.arrived ++ [m] <+: (wireAfter v side l).arrived := by
  have htakes : l.takes side = true := by
    unfold Label.takes
    split
    · cases hl
    · simp [hl]
  obtain ⟨e, he, rfl⟩ := Option.map_eq_some_iff.1 hnext
  have harrived : v.arrived ++ [e.payload] =
      (v.line.handed.take (v.taken + 1)).map WireEnvelope.payload := by
    rw [List.take_add_one, he]
    simp [Wire.arrived]
  rw [harrived]
  refine List.IsPrefix.map _ (List.prefix_take_iff.2 ⟨?_, ?_⟩)
  · exact (List.take_prefix _ _).trans (handed_after v side l)
  · refine (List.length_take_le _ _).trans ?_
    simp [wireAfter, htakes]

/-! ## What a run of the two keeps -/

theorem ordered_after (v : Wire) (side : Role) (l : Label) (h : v.line.Ordered)
    (hq : ∀ call, l.call? = some (side, call) → v.line.Waits call) :
    (wireAfter v side l).line.Ordered := by
  simp only [wireAfter, lineAfter]
  rcases hcall : l.call? with _ | ⟨r, call⟩
  · dsimp only
    split
    · refine List.Sublist.trans ?_ h
      simp
    · exact h
  · dsimp only
    split
    · next hr =>
      subst hr
      exact RelayLine.ordered_step h (hq call hcall)
    · exact h

/-- Over queued sends the envelopes arrive in the order they were sent. -/
theorem arrived_sublist {v : Wire} (h : v.line.Ordered) : v.arrived.Sublist v.sends := by
  refine List.Sublist.map _ ?_
  exact (List.take_sublist _ _).trans ((List.sublist_append_left _ _).trans h)

/-- What both sides of a run have in common. -/
structure Sided (routeId : Nat) (s : Route) (side : Role) : Prop where
  cfg : (s.proc side).cfg.role = side ∧ (s.proc side).cfg.routeId = routeId
  history : History (s.proc side).cfg (s.proc side).disk
  sound : (s.proc side).Sound

theorem reach_sided {ok : Route → Label → Prop} {i j routeId : Nat}
    (h : Reach Step ok (init i j routeId) s) (side : Role) : Sided routeId s side := by
  cases side with
  | leader =>
      obtain ⟨hhistory, hcfg, hsound⟩ := reach_history (reach_proc h .leader)
      exact ⟨by rw [hcfg]; exact ⟨rfl, rfl⟩, by rw [hcfg]; exact hhistory, hsound⟩
  | follower =>
      obtain ⟨hhistory, hcfg, hsound⟩ := reach_history (reach_proc h .follower)
      exact ⟨by rw [hcfg]; exact ⟨rfl, rfl⟩, by rw [hcfg]; exact hhistory, hsound⟩

/-- An envelope about an attempt is one the process has relayed. -/
def FromCell (s : Route) (side : Role) : Prop :=
  ∀ m ∈ (s.wire side).sends, m ∈ (s.proc side).disk.relayed ∨ ∃ k, m = .other k

theorem sent_cases {m : Message} (h : m ∈ l.sent side) :
    (∃ requestId ok, l = .cell side (.exec (.relay m)) requestId ok) ∨
      ∃ kind requestId ok, l = .publish side kind requestId ok ∧ m = .other kind := by
  unfold Label.sent at h
  split at h
  · next r e ok hcall =>
    split at h
    · next hr =>
      subst hr
      obtain rfl := List.mem_singleton.1 h
      unfold Label.call? at hcall
      split at hcall
      · cases hcall
        exact .inl ⟨_, _, rfl⟩
      · cases hcall
        exact .inr ⟨_, _, _, rfl, rfl⟩
      · cases hcall
      · cases hcall
    · cases h
  · cases h

theorem relayed_step {p p' : Proc} {l : PairCell.Label} (hs : p.Sound)
    (h : Proc.Step p l p') {m : Message} (hm : m ∈ p.disk.relayed) :
    m ∈ p'.disk.relayed := by
  cases hs.moves h with
  | exec hp hl hp' _ _ =>
      subst hp hp'
      show m ∈ (World.act _ _).disk.relayed
      rw [act_relayed]
      exact List.mem_append_left _ hm
  | still hdisk _ _ _ => rwa [hdisk]

theorem Step.cell_proc {l₀ : PairCell.Label} {requestId : Nat} {ok : Bool}
    (h : Step s (.cell side l₀ requestId ok) s') :
    Proc.Step (s.proc side) l₀ (s'.proc side) := by
  cases h with
  | cell _ _ hproc _ =>
      rw [proc_onWires, proc_withProc, if_pos rfl]
      exact hproc

/-- An action of one side that the step carries out. -/
theorem Step.exec {x : Action} {requestId : Nat} {ok : Bool}
    (h : Step s (.cell side (.exec x) requestId ok) s') (hs : (s.proc side).Sound) :
    ∃ w todo, s.proc side = .up w (x :: todo) ∧ s'.proc side = .up (w.act x) todo ∧
      PairCell.Sound w ∧ Permits w x := by
  cases hs.moves h.cell_proc with
  | exec hp hl hp' hsound hperm =>
      cases hl
      exact ⟨_, _, hp, hp', hsound, hperm⟩
  | still _ _ _ hl => exact absurd rfl (hl x)

theorem FromCell.step {routeId : Nat} (h : FromCell s side) (hs : Sided routeId s side)
    (hstep : Step s l s') : FromCell s' side := by
  intro m hm
  rw [hstep.wire, sends_after] at hm
  obtain hold | hnew := List.mem_append.1 hm
  · obtain hrelayed | hother := h m hold
    · refine .inl ?_
      obtain heq | ⟨_, _, _, -, hproc⟩ := hstep.proc side
      · rwa [heq]
      · exact relayed_step hs.sound hproc hrelayed
    · exact .inr hother
  · obtain ⟨requestId, ok, rfl⟩ | ⟨kind, _, _, -, rfl⟩ := sent_cases hnew
    · obtain ⟨w, todo, -, hp', -⟩ := hstep.exec hs.sound
      refine .inl ?_
      rw [hp']
      show m ∈ (w.act (.relay m)).disk.relayed
      rw [act_relayed]
      simp
    · exact .inr ⟨kind, rfl⟩

end Route

end PairCell

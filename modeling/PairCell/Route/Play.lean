import PairCell.Play
import PairCell.Route

/-!
# Runs of a route

A list of moves names a run of the two cells, as the list of moves of
`PairCell.Play` names a run of one.
-/

namespace PairCell.Route

open Lib World

instance (line : RelayLine Message) (call : RelayCall Message) :
    Decidable (line.Waits call) :=
  match call with
  | .send _ true => inferInstanceAs (Decidable (line.relay.pending = []))
  | .send _ false => isTrue trivial
  | .flush _ => isTrue trivial

instance (s : Route) (l : Label) : Decidable (Queued s l) :=
  if hwaits : ∀ x ∈ l.call?, (s.wire x.1).line.Waits x.2 then
    isTrue fun side call hcall => hwaits (side, call) hcall
  else isFalse fun h => hwaits fun x hx => h x.1 x.2 hx

/-- Every step is allowed. -/
def anyLabel : Route → Label → Prop := fun _ _ => True

instance (s : Route) (l : Label) : Decidable (anyLabel s l) := isTrue trivial

inductive Move where
  | call (side : Role) (call : Call) (script : Script)
  /-- The next envelope of the peer is handed to the side. -/
  | deliver (side : Role) (script : Script)
  /-- The next action of the side. -/
  | exec (side : Role) (ok : Bool)
  | flush (side : Role) (oks : List Bool)
  | lose (side : Role)
  | reopen (side : Role)

namespace Move

def optional : Move → Bool
  | .exec .. => true
  | _ => false

def next (s : Route) : Move → Option (Label × Route)
  | .call side c script =>
      if c.message? = none then
        ((s.proc side).start (.call c script)).map fun r =>
          (.cell side r.1 0 true, (s.withProc side r.2).onWires (.cell side r.1 0 true))
      else none
  | .deliver side script =>
      (s.wire side.peer).next.bind fun m =>
        ((s.proc side).start (.call (.event (.envelope m)) script)).map fun r =>
          (.cell side r.1 0 true, (s.withProc side r.2).onWires (.cell side r.1 0 true))
  | .exec side ok =>
      match s.proc side with
      | .up w (x :: todo) =>
          some (.cell side (.exec x) 0 ok,
            (s.withProc side (.up (w.act x) todo)).onWires (.cell side (.exec x) 0 ok))
      | _ => none
  | .flush side oks =>
      match s.proc side with
      | .up _ [] => some (.flush side oks, s.onWires (.flush side oks))
      | _ => none
  | .lose side => (s.wire side).next.map fun _ => (.lose side, s.onWires (.lose side))
  | .reopen side =>
      ((s.proc side).start .reopen).map fun r =>
        (.cell side r.1 0 true, (s.withProc side r.2).onWires (.cell side r.1 0 true))

theorem next_step {s s' : Route} {m : Move} {l : Label} (h : m.next s = some (l, s')) :
    Step s l s' := by
  cases m with
  | call side c script =>
      simp only [next] at h
      split at h
      · next hcall =>
        obtain ⟨⟨l₀, p⟩, hstart, hr⟩ := Option.map_eq_some_iff.1 h
        cases hr
        refine .cell 0 true (Proc.start_step hstart) fun r m harrival => ?_
        simp only [Proc.start] at hstart
        split at hstart
        · split at hstart
          · cases hstart
            simp [Label.arrival?, hcall] at harrival
          · cases hstart
        · cases hstart
      · cases h
  | deliver side script =>
      simp only [next] at h
      obtain ⟨m, hm, h⟩ := Option.bind_eq_some_iff.1 h
      obtain ⟨⟨l₀, p⟩, hstart, hr⟩ := Option.map_eq_some_iff.1 h
      cases hr
      refine .cell 0 true (Proc.start_step hstart) fun r m' harrival => ?_
      simp only [Proc.start] at hstart
      split at hstart
      · split at hstart
        · cases hstart
          simp only [Label.arrival?, Call.message?, Option.map_some, Option.some.injEq,
            Prod.mk.injEq] at harrival
          obtain ⟨rfl, rfl⟩ := harrival
          exact hm
        · cases hstart
      · cases hstart
  | exec side ok =>
      simp only [next] at h
      split at h
      · next w x todo hproc =>
        cases h
        refine .cell 0 ok ?_ fun r m harrival => by cases harrival
        rw [hproc]
        exact .exec x todo
      · cases h
  | flush side oks =>
      simp only [next] at h
      split at h
      · next w hproc =>
        cases h
        exact .flush oks hproc
      · cases h
  | lose side =>
      simp only [next] at h
      obtain ⟨m, hm, h⟩ := Option.map_eq_some_iff.1 h
      cases h
      exact .lose hm
  | reopen side =>
      simp only [next] at h
      obtain ⟨⟨l₀, p⟩, hstart, hr⟩ := Option.map_eq_some_iff.1 h
      cases hr
      refine .cell 0 true (Proc.start_step hstart) fun r m harrival => ?_
      simp only [Proc.start] at hstart
      split at hstart
      · obtain ⟨w, -, hw⟩ := Option.map_eq_some_iff.1 hstart
        cases hw
        cases harrival
      · cases hstart

end Move

section

variable (ok : Route → Label → Prop) [∀ s l, Decidable (ok s l)]

def plays (s : Route) (ms : List Move) : Option Route :=
  play ok (fun s m => m.next s) Move.optional s ms

theorem plays_any (s : Route) (ms : List Move) (P : Route → Bool)
    (h : (plays ok s ms).any P = true) : ∃ t, Reach Step ok s t ∧ P t = true := by
  unfold plays at h
  refine play_any (fun s m l t hnext => ?_) P h
  exact Move.next_step hnext

end

namespace Sample

open PairCell.Sample (attempt policy emptyFacts emptyAccount refused filled entryHeld)

def both : Route := init 1 2 7

/-- A call that sends its envelopes or keeps them in the outbox. -/
def run (side : Role) (ok : Bool) (n : Nat) (c : Call) (script : Script) : List Move :=
  .call side c script :: List.replicate n (.exec side ok)

def ready (side : Role) : List Move :=
  .reopen side :: run side true 20 .recover {} ++
    run side true 20 (.event (.readinessFacts 1 emptyFacts)) {} ++
    run side true 20 (.event (.policy policy)) {}

def decided (ok : Bool) : List Move :=
  run .leader ok 60 (.event (.readinessFacts 2 emptyFacts))
    { decision := some (attempt 100), replies := [refused],
      reads := [some emptyAccount], depth := 1 }

/-- The session comes back, and the leader asks for the follower's proof. -/
def probed : List Move :=
  run .leader true 10 (.event (.peerSession 3 false)) {} ++
    run .leader true 30 (.event (.peerSession 4 true)) {}

def delivered (side : Role) (n : Nat) (script : Script) : List Move :=
  .deliver side script :: List.replicate n (.exec side true)

/-- The position of the follower's filled entry. -/
def otherHeld : Position := ⟨56, "EURUSD", some .short, some 1, some 1, some 2, some 1⟩

/-- A terminal that fills what it is sent; the box is the rough protection of the side. -/
def filling (side : Role) : Script :=
  let a := attempt 100
  let held := match side with
    | .leader => entryHeld
    | .follower => otherHeld
  { replies := [filled], reads := [some ⟨[], [held]⟩], leaderTick := some 1,
    followerTick := some 1
    mirror := some (a.roughOf side), depth := 1 }

def relayed (side : Role) (n : Nat) : List Move :=
  (List.replicate n (delivered side 60 (filling side))).flatten

/-- Both entries fill. -/
def entered : List Move :=
  ready .leader ++ ready .follower ++
    run .leader true 60 (.event (.readinessFacts 2 emptyFacts))
      { filling .leader with decision := some (attempt 100) } ++
    relayed .follower 1

/-- The pair is confirmed, and both cells count it as active. -/
def paired : List Move :=
  entered ++ relayed .follower 2 ++ relayed .leader 2 ++ relayed .follower 2 ++
    relayed .leader 1

end Sample

end PairCell.Route

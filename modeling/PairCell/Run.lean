import PairCell.Lib.Runs
import PairCell.Safe.Cell

/-!
# Runs of a worker

A worker handles one call at a time.  A call fixes the list of actions it will
perform; they are carried out one by one, and the process can die between any
two of them.  Reopening constructs the cell from what is on disk.
-/

namespace PairCell

open Lib World

inductive Proc where
  | up (w : World) (todo : List Action)
  | down (c : Config) (d : Disk)

namespace Proc

def disk : Proc → Disk
  | .up w _ => w.disk
  | .down _ d => d

def cfg : Proc → Config
  | .up w _ => w.cfg
  | .down c _ => c

/-- The effect whose `send_started` was committed by the running process
and not yet used. -/
def armed : Proc → Option EffectId
  | .up w _ => w.mem.armed
  | .down _ _ => none

end Proc

inductive Label where
  | begin (call : Call) (script : Script)
  | serve (item : ForeignItem) (script : Script)
  | exec (a : Action)
  | crash
  | reopen

def Call.message? : Call → Option Message
  | .event (.envelope m) => some m
  | _ => none

/-- The world a call starts in. -/
def World.given (w : World) (call : Call) (script : Script) : World :=
  { w with script := { script with delivered := call.message? } }

/-- The ids the leader draws for its attempts are new. -/
def Script.Fresh (script : Script) (d : Disk) : Prop :=
  ∀ a, script.decision = some a → d.rowOf a.attemptId = none

/-- Another client's item brings no envelope and no decision. -/
def World.lent (w : World) (script : Script) : World :=
  { w with script := { script with delivered := none, decision := none } }

inductive Proc.Step : Proc → Label → Proc → Prop where
  | begin {w : World} (call : Call) (script : Script) (hfresh : script.Fresh w.disk) :
      Step (.up w []) (.begin call script)
        (.up (w.given call script) (call.run (w.given call script)).2)
  | serve {w : World} (item : ForeignItem) (script : Script) :
      Step (.up w []) (.serve item script)
        (.up (w.lent script) (dispatchScheduledTraderRpc item (w.lent script)).2)
  | exec {w : World} (a : Action) (todo : List Action) :
      Step (.up w (a :: todo)) (.exec a) (.up (w.act a) todo)
  | crash {w : World} {todo : List Action} : Step (.up w todo) .crash (.down w.cfg w.disk)
  | reopen {c : Config} {d : Disk} {w : World} (h : load c d = some w) :
      Step (.down c d) .reopen (.up w [])

/-- A worker on an empty database. -/
def Proc.init (c : Config) : Proc := .down c {}

/-- Every step is allowed. -/
def anyStep : Proc → Label → Prop := fun _ _ => True

/-! ## Soundness of runs -/

/-- The database is sound, and what the running call still does is permitted. -/
inductive Proc.Sound : Proc → Prop where
  | up {w : World} {todo : List Action} (hs : PairCell.Sound w)
      (htodo : Allowed Permits w todo)
      (hidle : Idle (after w todo)) : Sound (.up w todo)
  | down {c : Config} {d : Disk} (hd : DiskSound c d) (hj : JournalSound d none) :
      Sound (.down c d)

theorem Proc.Sound.diskSound {p : Proc} (h : p.Sound) : DiskSound p.cfg p.disk := by
  cases h with
  | up hs _ _ => exact hs.disk
  | down hd _ => exact hd

theorem Booked.given {w : World} (h : Booked w) (call : Call) (script : Script)
    (hfresh : script.Fresh w.disk) : Booked (w.given call script) :=
  ⟨h.disk, { h.mem with fresh := fun a ha _ => hfresh a ha }⟩

theorem good_given {w : World} (h : Good w) (call : Call) (script : Script)
    (hfresh : script.Fresh w.disk) : Good (w.given call script) :=
  ⟨⟨h.sound.toBooked.given call script hfresh, h.sound.journal⟩,
    idle_same h.idle rfl rfl rfl rfl⟩

theorem good_lent {w : World} (h : Good w) (script : Script) : Good (w.lent script) :=
  ⟨⟨⟨h.sound.disk, { h.sound.mem with fresh := fun _ ha _ => nomatch ha }⟩,
    h.sound.journal⟩, idle_same h.idle rfl rfl rfl rfl⟩

theorem delivers_given (w : World) (call : Call) (script : Script) :
    call.Delivers (w.given call script) := by
  rintro m rfl
  rfl

theorem load_idle {c : Config} {d : Disk} {w : World} (h : DiskSound c d)
    (hload : load c d = some w) : Idle w ∧ w.cfg = c ∧ w.disk = d := by
  rw [load_eq h] at hload
  cases hat : loadedAttempt c d with
  | none =>
      simp only [hat, Option.some.injEq] at hload
      subst hload
      exact ⟨⟨rfl, rfl, rfl, rfl⟩, rfl, rfl⟩
  | some a =>
      simp only [hat, Option.map_eq_some_iff] at hload
      obtain ⟨peer, -, rfl⟩ := hload
      exact ⟨⟨rfl, rfl, rfl, rfl⟩, rfl, rfl⟩

theorem load_script {c : Config} {d : Disk} {w : World} (h : DiskSound c d)
    (hload : load c d = some w) : w.script = {} := by
  rw [load_eq h] at hload
  cases hat : loadedAttempt c d with
  | none =>
      simp only [hat, Option.some.injEq] at hload
      subst hload
      rfl
  | some a =>
      simp only [hat, Option.map_eq_some_iff] at hload
      obtain ⟨peer, -, rfl⟩ := hload
      rfl

theorem Proc.Sound.step {p p' : Proc} {l : Label} (h : p.Sound)
    (hstep : Proc.Step p l p') :
    p'.Sound := by
  cases hstep with
  | begin call script hfresh =>
      cases h with
      | up hs _ hidle =>
          have hw := good_given ⟨hs, hidle⟩ call script hfresh
          have hrun := wp_call hw (delivers_given _ call script)
          exact .up hw.sound hrun.1 hrun.2.idle
  | serve item script =>
      cases h with
      | up hs _ hidle =>
          have hw := good_lent ⟨hs, hidle⟩ script
          have hrun := wp_serveItem item hw
          exact .up hw.sound hrun.1 hrun.2.idle
  | exec a todo =>
      cases h with
      | up hs htodo hidle => exact .up (hs.act htodo.1) htodo.2 hidle
  | crash =>
      cases h with
      | up hs _ _ => exact .down hs.disk ⟨hs.journal.sent, (fun _ he => nomatch he),
          hs.journal.own⟩
  | reopen hload =>
      cases h with
      | down hd hj => exact .up (Sound.load hd hj hload) trivial (load_idle hd hload).1

theorem Proc.sound_init (c : Config) : (Proc.init c).Sound := by
  refine .down ?_ ?_
  · exact {
      ids := by simp
      route := by simp
      legs := fun i l hl => by simp at hl
      sent := by simp
      terminated := by simp
      stop := by simp }
  · exact ⟨by simp, by simp, fun e r hr => by simp at hr⟩

theorem Proc.reach_sound {ok : Proc → Label → Prop} {c : Config} {p : Proc}
    (h : Reach Proc.Step ok (.init c) p) : p.Sound :=
  h.invariant (Proc.sound_init c) fun _ _ _ hs _ hstep => hs.step hstep

/-! ## What a step changes -/

/-- The database changes only by a permitted action of the running call. -/
inductive Proc.Moves (p : Proc) (l : Label) (p' : Proc) : Prop where
  | exec {w : World} {a : Action} {todo : List Action} (hp : p = .up w (a :: todo))
      (hl : l = .exec a) (hp' : p' = .up (w.act a) todo) (hs : PairCell.Sound w)
      (hperm : Permits w a)
  | still (hdisk : p'.disk = p.disk) (hcfg : p'.cfg = p.cfg)
      (harmed : p'.armed = p.armed ∨ p'.armed = none) (hl : ∀ a, l ≠ .exec a)

theorem Proc.Sound.moves {p p' : Proc} {l : Label} (h : p.Sound)
    (hstep : Proc.Step p l p') :
    p.Moves l p' := by
  cases hstep with
  | begin call script hfresh => exact .still rfl rfl (.inl rfl) (by simp)
  | serve item script => exact .still rfl rfl (.inl rfl) (by simp)
  | exec a todo =>
      cases h with
      | up hs htodo _ => exact .exec rfl rfl rfl hs htodo.1
  | crash => exact .still rfl rfl (.inr rfl) (by simp)
  | reopen hload =>
      cases h with
      | down hd _ =>
          obtain ⟨hidle, hcfg, hdisk⟩ := load_idle hd hload
          exact .still hdisk hcfg (.inr hidle.armed) (by simp)

/-- An invariant of the database that permitted actions keep holds in every state
reached. -/
theorem Proc.reach_disk {ok : Proc → Label → Prop} {c : Config} {p : Proc}
    {I : Disk → Prop} (h : Reach Proc.Step ok (.init c) p) (hinit : I {})
    (hact : ∀ w a todo, PairCell.Sound w → w.cfg = c → I w.disk → Permits w a →
      ok (.up w (a :: todo)) (.exec a) → I (w.act a).disk) :
    I p.disk ∧ p.cfg = c ∧ p.Sound := by
  refine h.invariant (I := fun p => I p.disk ∧ p.cfg = c ∧ p.Sound)
    ⟨hinit, rfl, Proc.sound_init c⟩ ?_
  rintro p l p' ⟨hi, hc, hs⟩ hok hstep
  have hs' := hs.step hstep
  cases hs.moves hstep with
  | exec hp hl hp' hsound hperm =>
      subst hp hl hp'
      exact ⟨hact _ _ _ hsound hc hi hperm hok, (act_cfg _ _).trans hc, hs'⟩
  | still hdisk hcfg _ _ =>
      rw [hdisk, hcfg]
      exact ⟨hi, hc, hs'⟩

/-- `W` holds of the running process, `D` of the database it leaves behind. -/
inductive Proc.Meets (W : World → Prop) (D : Config → Disk → Prop) : Proc → Prop where
  | up {w : World} {todo : List Action} (h : W w) : Meets W D (.up w todo)
  | down {c : Config} {d : Disk} (h : D c d) : Meets W D (.down c d)

/-- What actions keep, a crash leaves on disk and reopening restores holds along a run. -/
theorem Proc.reach_meets {ok : Proc → Label → Prop} {c : Config} {p : Proc}
    {W : World → Prop} {D : Config → Disk → Prop} (h : Reach Proc.Step ok (.init c) p)
    (hinit : D c {}) (hscript : ∀ w script, W w → W { w with script := script })
    (hact : ∀ w x, PairCell.Sound w → Permits w x → W w → W (w.act x))
    (hcrash : ∀ w, PairCell.Sound w → W w → D w.cfg w.disk)
    (hload : ∀ c d w, DiskSound c d → D c d → load c d = some w → W w) :
    p.Sound ∧ p.Meets W D := by
  refine h.invariant (I := fun p => p.Sound ∧ p.Meets W D) ⟨Proc.sound_init c,
    .down hinit⟩ ?_
  rintro p l p' ⟨hs, hp⟩ - hstep
  refine ⟨hs.step hstep, ?_⟩
  cases hstep with
  | begin call script hfresh =>
      cases hp with
      | up hw => exact .up (hscript _ _ hw)
  | serve item script =>
      cases hp with
      | up hw => exact .up (hscript _ _ hw)
  | exec a todo =>
      cases hp with
      | up hw =>
          cases hs with
          | up hsound htodo _ => exact .up (hact _ a hsound htodo.1 hw)
  | crash =>
      cases hp with
      | up hw =>
          cases hs with
          | up hsound _ _ => exact .down (hcrash _ hsound hw)
  | reopen hopen =>
      cases hp with
      | down hd =>
          cases hs with
          | down hsound _ => exact .up (hload _ _ _ hsound hd hopen)

end PairCell

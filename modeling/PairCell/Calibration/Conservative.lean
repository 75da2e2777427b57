import Mathlib.Data.Rat.Floor
import PairCell.Calibration

/-!
# The calibration is conservative

The median of the samples may be behind the broker clock by the staleness of
their ticks.  The error that is charged repays it, so ages and distances on the
calibrated time are never too small.
-/

namespace PairCell.Calibration

open Lib

/-- The tick was read at an instant of the reading, and is not newer than a broker clock
that is `T` seconds ahead of UTC. -/
structure Reading.ReadAt (r : Reading) (T t : ℚ) : Prop where
  after_before : seconds r.before ≤ t
  before_after : t ≤ seconds r.after
  not_newer : ∀ e ∈ r.epoch, (e : ℚ) / 1000 ≤ t + T

/-- The tick showed the broker clock at the instant it was read. -/
def Reading.Current (r : Reading) (T : ℚ) : Prop :=
  ∃ t, r.ReadAt T t ∧ ∀ e ∈ r.epoch, (e : ℚ) / 1000 = t + T

/-- The calibration was sampled from a broker clock that is `T` seconds ahead of UTC. -/
def Sampled (T : ℚ) (c : BrokerClockCalibration) : Prop :=
  ∃ readings sample, sampleBrokerClockCalibration readings = .ok (some sample) ∧
    sample.calibration = c ∧ (∀ r ∈ readings, ∃ t, r.ReadAt T t) ∧
    ∃ r ∈ readings, r.Current T

def sampleOf (r : Reading) (epoch : Int) : Sample :=
  ⟨epoch / 1000 - seconds r.midpoint, r.span, r.after⟩

theorem mem_collect {previous : Option Int} {readings : List Reading}
    {samples : List Sample} (h : collect previous readings = some samples) (s : Sample) :
    s ∈ samples ↔ ∃ r ∈ readings, ∃ e ∈ r.epoch, s = sampleOf r e := by
  induction readings generalizing previous samples with
  | nil =>
      obtain rfl := Option.some.inj h
      simp
  | cons r rs ih =>
      simp only [collect] at h
      split at h
      · cases h
      · next epoch hepoch =>
          split at h
          · cases h
          · obtain ⟨rest, hrest, rfl⟩ := Option.map_eq_some_iff.1 h
            simp [ih hrest, hepoch, sampleOf]

theorem collect_epoch {previous : Option Int} {readings : List Reading}
    {samples : List Sample} (h : collect previous readings = some samples) {r : Reading}
    (hr : r ∈ readings) :
    ∃ e, r.epoch = some e := by
  induction readings generalizing previous samples with
  | nil => cases hr
  | cons q rs ih =>
      simp only [collect] at h
      split at h
      · cases h
      · next epoch hepoch =>
          split at h
          · cases h
          · obtain ⟨rest, hrest, -⟩ := Option.map_eq_some_iff.1 h
            obtain rfl | hr := List.mem_cons.1 hr
            · exact ⟨epoch, hepoch⟩
            · exact ih hrest hr

/-! ## One sample -/

section Sample

variable {r : Reading} {T t : ℚ} {e : Int}

/-- The middle of a reading is at most half of it and half a microsecond away. -/
theorem midpoint_near (r : Reading) :
    |seconds r.midpoint - (seconds r.before + r.span / 2)| ≤ 1 / 2000000 := by
  have hround := abs_halfEven_sub (((r.after - r.before : Int) / 2 : ℚ))
  rw [abs_le] at hround ⊢
  simp only [Reading.midpoint, Reading.span, seconds]
  push_cast at hround ⊢
  constructor <;> linarith

theorem offset_le (hread : r.ReadAt T t) (he : r.epoch = some e) :
    (sampleOf r e).offset ≤ T + r.span / 2 + 1 / 2000000 := by
  have hmid := (abs_le.1 (midpoint_near r)).1
  have hnewer := hread.not_newer e he
  have hafter := hread.before_after
  have hspan : r.span = seconds r.after - seconds r.before := by
    simp [Reading.span, seconds, sub_div]
  simp only [sampleOf]
  linarith

theorem le_offset (hread : r.ReadAt T t) (hcurrent : (e : ℚ) / 1000 = t + T) :
    T - r.span / 2 - 1 / 2000000 ≤ (sampleOf r e).offset := by
  have hmid := (abs_le.1 (midpoint_near r)).2
  have hbefore := hread.after_before
  simp only [sampleOf]
  linarith

/-- An offset is a whole number of microseconds. -/
theorem offset_whole (r : Reading) (e : Int) :
    ∃ n : Int, (sampleOf r e).offset = n / 1000000 := by
  refine ⟨e * 1000 - r.midpoint, ?_⟩
  simp only [sampleOf, seconds]
  push_cast
  ring

end Sample

/-! ## The median and what is charged -/

section Charged

variable {offsets spans : List ℚ} {T : ℚ}

theorem timedelta_near (x : ℚ) : |seconds (timedelta x) - x| ≤ 1 / 2000000 := by
  have hround := abs_halfEven_sub (x * 1000000)
  rw [abs_le] at hround ⊢
  simp only [seconds, timedelta]
  constructor <;> linarith

/-- An offset that is no whole number of microseconds is the mean of two that differ. -/
theorem timedelta_median (hne : offsets ≠ [])
    (hwhole : ∀ x ∈ offsets, ∃ n : Int, x = n / 1000000) {most least : ℚ}
    (hmost : ∀ x ∈ offsets, x ≤ most) (hleast : ∀ x ∈ offsets, least ≤ x) :
    |seconds (timedelta (median offsets)) - median offsets| ≤ most - least := by
  obtain ⟨a, ha, b, hb, hmedian⟩ := median_mean hne
  obtain ⟨p, rfl⟩ := hwhole a ha
  obtain ⟨q, rfl⟩ := hwhole b hb
  by_cases hpq : p = q
  · subst hpq
    have hexact : timedelta (median offsets) = p := by
      rw [timedelta, hmedian, add_self_div_two, div_mul_cancel₀ _ (by norm_num)]
      exact halfEven_intCast p
    rw [hexact, hmedian, add_self_div_two, seconds, sub_self, abs_zero]
    linarith [hmost _ ha, hleast _ ha]
  · refine (timedelta_near _).trans ?_
    have hapart : (1 : ℚ) ≤ |(p : ℚ) - q| := by
      exact_mod_cast Int.one_le_abs (sub_ne_zero.2 hpq)
    have hp := hmost _ ha
    have hp' := hleast _ ha
    have hq := hmost _ hb
    have hq' := hleast _ hb
    obtain hsign | hsign := le_abs.1 hapart
    · linarith
    · linarith

/-- What is charged repays the staleness that the median absorbed and the rounding of the
offset. -/
theorem charged (hne : offsets ≠ []) (hspans : spans ≠ [])
    (hwhole : ∀ x ∈ offsets, ∃ n : Int, x = n / 1000000) (hspan : ∀ s ∈ spans, 0 ≤ s)
    (hle : ∀ x ∈ offsets, ∃ s ∈ spans, x ≤ T + s / 2 + 1 / 2000000)
    (hcurrent : ∃ x ∈ offsets, ∃ s ∈ spans, T - s / 2 - 1 / 2000000 ≤ x) :
    let offset := median offsets
    let error := roundMicro (samplingError offsets spans)
    |offset - T| ≤ error + 1 / 1000000 ∧ |seconds (timedelta offset) - T| ≤
      error + 1 / 1000000 := by
  obtain ⟨most, hmax⟩ := Option.isSome_iff_exists.1 (List.isSome_max?_iff.2 hne)
  obtain ⟨least, hmin⟩ := Option.isSome_iff_exists.1 (List.isSome_min?_iff.2 hne)
  obtain ⟨widest, hwide⟩ := Option.isSome_iff_exists.1 (List.isSome_max?_iff.2 hspans)
  obtain ⟨hmostmem, hmost⟩ := List.max?_eq_some_iff.1 hmax
  obtain ⟨hleastmem, hleast⟩ := List.min?_eq_some_iff.1 hmin
  obtain ⟨hwidemem, hwidest⟩ := List.max?_eq_some_iff.1 hwide
  obtain ⟨a, ha, b, hb, hmedian⟩ := median_mean hne
  have hupper : median offsets ≤ most := by linarith [hmost a ha, hmost b hb]
  have hstale : T ≤ most + widest / 2 + 1 / 2000000 := by
    obtain ⟨x, hx, s, hs, hbound⟩ := hcurrent
    linarith [hmost x hx, hwidest s hs]
  have hnewest : most ≤ T + widest / 2 + 1 / 2000000 := by
    obtain ⟨s, hs, hbound⟩ := hle most hmostmem
    linarith [hwidest s hs]
  have hrounded := timedelta_median hne hwhole hmost hleast
  have hresidual : most - median offsets ≤ residual offsets ∧ 0 ≤ residual offsets := by
    simp [residual, hmax]
  have hdispersion : dispersion offsets = most - least := by simp [dispersion, hmax, hmin]
  have hround : samplingError offsets spans - 1 / 2000000 ≤
      roundMicro (samplingError offsets spans) := by
    have hnear := (abs_le.1 (abs_halfEven_sub (samplingError offsets spans * 1000000))).1
    rw [roundMicro]
    linarith
  have herror : samplingError offsets spans = residual offsets +
      (most - least) + widest / 2 := by
    rw [samplingError, hdispersion, hwide, Option.getD_some]
  have hspread : least ≤ most := hleast most hmostmem
  have hwidth : 0 ≤ widest := hspan widest hwidemem
  rw [abs_le] at hrounded
  simp only [abs_le]
  refine ⟨⟨?_, ?_⟩, ?_, ?_⟩ <;> linarith

end Charged

/-- The offset of a sampled calibration, and what it is rounded to, are
as exact as it says. -/
theorem Sampled.near {T : ℚ} {c : BrokerClockCalibration} (h : Sampled T c) :
    |c.offsetSeconds - T| ≤ c.errorSeconds + 1 / 1000000 ∧
      |seconds (timedelta c.offsetSeconds) - T| ≤ c.errorSeconds + 1 / 1000000 := by
  obtain ⟨readings, sample, hsample, rfl, hread, q, hq, hcurrent⟩ := h
  simp only [sampleBrokerClockCalibration] at hsample
  split at hsample
  · cases hsample
  · split at hsample
    · cases hsample
    · next samples hcollect =>
        split at hsample
        · cases hsample
        · split at hsample
          · cases hsample
          · next last hlast =>
              split at hsample
              · next hnonneg =>
                  cases hsample
                  have hmem := mem_collect hcollect
                  have hne : samples ≠ [] := by
                    rintro rfl
                    cases hlast
                  refine charged (by simpa using hne) (by simpa using hne) ?_ ?_ ?_ ?_
                  · intro x hx
                    obtain ⟨s, hs, rfl⟩ := List.mem_map.1 hx
                    obtain ⟨r, -, e, -, rfl⟩ := (hmem s).1 hs
                    exact offset_whole r e
                  · intro x hx
                    obtain ⟨s, hs, rfl⟩ := List.mem_map.1 hx
                    obtain ⟨r, hr, e, -, rfl⟩ := (hmem s).1 hs
                    obtain ⟨t, ht⟩ := hread r hr
                    have hspan : r.span = seconds r.after - seconds r.before := by
                      simp [Reading.span, seconds, sub_div]
                    simp only [sampleOf]
                    linarith [ht.after_before, ht.before_after]
                  · intro x hx
                    obtain ⟨s, hs, rfl⟩ := List.mem_map.1 hx
                    obtain ⟨r, hr, e, he, rfl⟩ := (hmem s).1 hs
                    obtain ⟨t, ht⟩ := hread r hr
                    exact ⟨_, List.mem_map_of_mem hs, offset_le ht he⟩
                  · obtain ⟨t, ht, hnow⟩ := hcurrent
                    obtain ⟨e, he⟩ := collect_epoch hcollect hq
                    have hs := (hmem (sampleOf q e)).2 ⟨q, hq, e, he, rfl⟩
                    exact ⟨_, List.mem_map_of_mem hs, _, List.mem_map_of_mem hs,
                      le_offset ht (hnow e he)⟩
              · cases hsample

/-- How long ago a quote was current at a broker whose clock is `T`
seconds ahead of UTC. -/
def trueAge (T : ℚ) (q : QuoteSnapshot) (now : Instant) : ℚ :=
  seconds now - (seconds q.brokerTime - T)

/-- How far apart two quotes were current. -/
def trueDistance (T T' : ℚ) (q q' : QuoteSnapshot) : ℚ :=
  |(seconds q.brokerTime - T) - (seconds q'.brokerTime - T')|

/-- Sampled offsets are as exact as they say, and neither ages nor distances are
understated. -/
theorem calibration_is_conservative (T : ℚ) (c : BrokerClockCalibration)
    (h : Sampled T c) :
    |c.offsetSeconds - T| ≤ c.errorSeconds + 1 / 1000000 ∧
      (∀ (q : QuoteSnapshot) (now : Instant) (m : ℚ), q.calibration = c →
        q.fresh now m = true →
        trueAge T q now ≤ m + 1 / 1000000) ∧
      ∀ (T' : ℚ) (c' : BrokerClockCalibration), Sampled T' c' →
        ∀ q q' : QuoteSnapshot, q.calibration = c → q'.calibration = c' →
          trueDistance T T' q q' ≤ calibratedSkewSeconds q q' + 2 / 1000000 := by
  obtain ⟨hoffset, hrounded⟩ := h.near
  refine ⟨hoffset, fun q now m hq hfresh => ?_, fun T' c' h' q q' hq hq' => ?_⟩
  · simp only [QuoteSnapshot.fresh, Bool.and_eq_true, decide_eq_true_eq] at hfresh
    have hage := hfresh.2.2
    rw [abs_le] at hrounded
    simp only [QuoteSnapshot.ageSeconds, QuoteSnapshot.calibratedBrokerTime, hq,
      seconds] at hage hrounded
    simp only [trueAge, seconds]
    push_cast at hage
    linarith
  · obtain ⟨-, hrounded'⟩ := h'.near
    have hskew : calibratedSkewSeconds q q' =
        |(seconds q.brokerTime - seconds (timedelta c.offsetSeconds)) -
          (seconds q'.brokerTime - seconds (timedelta c'.offsetSeconds))| +
          c.errorSeconds + c'.errorSeconds := by
      simp only [calibratedSkewSeconds, QuoteSnapshot.calibratedBrokerTime,
        hq, hq', seconds]
      push_cast
      congr 3
      ring
    rw [hskew, trueDistance]
    rw [abs_le] at hrounded hrounded'
    have hsplit :=
      le_abs_self ((seconds q.brokerTime - seconds (timedelta c.offsetSeconds)) -
      (seconds q'.brokerTime - seconds (timedelta c'.offsetSeconds)))
    have hsplit' :=
      neg_abs_le ((seconds q.brokerTime - seconds (timedelta c.offsetSeconds)) -
      (seconds q'.brokerTime - seconds (timedelta c'.offsetSeconds)))
    rw [abs_le]
    constructor <;> linarith

/-! ## A sampled clock -/

namespace Sample

/-- Two readings of a clock three seconds ahead; the first tick is a
quarter of a second old. -/
def readings : List Reading :=
  [⟨10000000, some ⟨some 12752, none⟩, 10004000⟩,
    ⟨11000000, some ⟨some 14001, none⟩, 11004000⟩]

theorem sampled : ∃ c, Sampled 3 c := by
  have hok : (sampleBrokerClockCalibration readings).toOption.join.isSome = true := by
    decide +kernel
  cases hsample : sampleBrokerClockCalibration readings with
  | error e =>
      rw [hsample] at hok
      cases hok
  | ok sample? =>
      rw [hsample] at hok
      obtain ⟨sample, rfl⟩ := Option.isSome_iff_exists.1 hok
      refine ⟨_, readings, sample, hsample, rfl, fun r hr => ?_, ?_⟩
      · obtain rfl | hr := List.mem_cons.1 hr
        · exact ⟨10001 / 1000, by norm_num [seconds], by norm_num [seconds],
            by decide +kernel⟩
        · obtain rfl := List.mem_singleton.1 hr
          exact ⟨11001 / 1000, by norm_num [seconds], by norm_num [seconds],
            by decide +kernel⟩
      · refine ⟨_, List.mem_cons_of_mem _ List.mem_cons_self, 11001 / 1000,
          ⟨?_, ?_, ?_⟩, ?_⟩
        · norm_num [seconds]
        · norm_num [seconds]
        · decide +kernel
        · decide +kernel

end Sample

theorem sample_is_conservative :
    ∃ c, Sampled 3 c ∧ |c.offsetSeconds - 3| ≤ c.errorSeconds + 1 / 1000000 := by
  obtain ⟨c, hc⟩ := Sample.sampled
  exact ⟨c, hc, (calibration_is_conservative 3 c hc).1⟩

end PairCell.Calibration

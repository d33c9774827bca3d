import MesCore.PyNumbers
import MesCore.SysfsPoller
import Mathlib.Algebra.Order.BigOperators.Group.List

namespace MesCore
set_option autoImplicit true

open Shell (Text)

namespace BackgroundSysfsPoller

/-- The samples of the `i`-th target: its field in every line that has a field for each target. -/
def samplesOf (n i : Nat) (rawLines : List Text) : List Text :=
  rawLines.filterMap fun line =>
    let vals := (splitBars [] line).map pyStrip
    if vals.length = n then vals[i]?.filter (· ≠ []) else none

def unitSuffix (target : SysfsTargetConfig) : Text :=
  if target.unit = [] then [] else '_' :: target.unit

/-- The key of a metric in the dict that `_parse_data` returns. -/
def metricName (kt : Text × SysfsTargetConfig) (stat : String) : Text :=
  kt.1 ++ stat.toList ++ unitSuffix kt.2

/-- What the dict holds in the end: the last value assigned under a name. -/
def metric (float : Text → Option ℚ) (p : BackgroundSysfsPoller) (rawLines : List Text)
    (name : Text) : Option Metric :=
  (((parseData float p rawLines).filter (·.1 = name)).getLast?).map Prod.snd

def mean (readings : List ℚ) : ℚ := readings.sum / readings.length

/-- The metrics of a target's readings, as far as they stand in the dict. -/
structure Reported (float : Text → Option ℚ) (p : BackgroundSysfsPoller) (rawLines : List Text)
    (kt : Text × SysfsTargetConfig) (readings : List ℚ) (lo avg hi : ℚ) : Prop where
  min_reported : metric float p rawLines (metricName kt "_min") = some (.number lo)
  max_reported : metric float p rawLines (metricName kt "_max") = some (.number hi)
  avg_reported : metric float p rawLines (metricName kt "_avg") = some (.number avg)
  least : IsLeast {x | x ∈ readings} lo
  greatest : IsGreatest {x | x ∈ readings} hi
  rounded : avg = roundHalfEven (mean readings * 100) / 100

/-- A target's metrics are those of its readings, with the average between the other two. -/
def Consistent (float : Text → Option ℚ) (p : BackgroundSysfsPoller) (rawLines : List Text)
    (kt : Text × SysfsTargetConfig) (readings : List ℚ) : Prop :=
  ∃ lo avg hi, Reported float p rawLines kt readings lo avg hi ∧ lo ≤ avg ∧ avg ≤ hi

def reportedNames (float : Text → Option ℚ) (kt : Text × SysfsTargetConfig)
    (samples : List Text) : List Text :=
  match samples.mapM float with
  | some [] => []
  | some _ => ["_min", "_max", "_avg"].map (metricName kt)
  | none => [kt.1 ++ "_final_state".toList]

/-- No later target reports under a name of this one. -/
def OwnNames (float : Text → Option ℚ) (p : BackgroundSysfsPoller) (rawLines : List Text)
    (i : Nat) (kt : Text × SysfsTargetConfig) : Prop :=
  ∀ j kt', i < j → p.cfg.targets[j]? = some kt' → ∀ stat ∈ ["_min", "_max", "_avg"],
    metricName kt stat ∉ reportedNames float kt' (samplesOf p.cfg.targets.length j rawLines)

section
variable {float : Text → Option ℚ} {p : BackgroundSysfsPoller} {rawLines keys vals : List Text}
  {kt : Text × SysfsTargetConfig} {k : Text} {samples : Text → List Text} {i : Nat}

/-- What `addLine` does with one field. -/
def addField (samples : Text → List Text) (kv : Text × Text) : Text → List Text :=
  if kv.2 = [] then samples
  else fun k => if k = kv.1 then samples k ++ [kv.2] else samples k

theorem addField_same (k val : Text) (samples : Text → List Text) :
    addField samples (k, val) k = samples k ++ ((some val).filter (· ≠ [])).toList := by
  by_cases hval : val = []
  · simp [addField, hval]
  · simp [addField, Option.filter, hval]

theorem addField_other {kv : Text × Text} (h : k ≠ kv.1) : addField samples kv k = samples k := by
  unfold addField
  split
  · rfl
  · exact if_neg h

theorem foldl_addField_other (h : k ∉ keys) :
    (keys.zip vals).foldl addField samples k = samples k := by
  induction keys generalizing vals samples with
  | nil => rfl
  | cons key keys ih =>
    rw [List.mem_cons, not_or] at h
    cases vals with
    | nil => rfl
    | cons val vals =>
      rw [List.zip_cons_cons, List.foldl_cons, ih h.2, addField_other h.1]

theorem foldl_addField (hkeys : keys.Nodup) (hlength : vals.length = keys.length)
    (hk : keys[i]? = some k) :
    (keys.zip vals).foldl addField samples k =
      samples k ++ (vals[i]?.filter (· ≠ [])).toList := by
  induction keys generalizing vals samples i with
  | nil => cases hk
  | cons key keys ih =>
    obtain ⟨hkey, hkeys⟩ := List.nodup_cons.mp hkeys
    cases vals with
    | nil => cases hlength
    | cons val vals =>
      rw [List.zip_cons_cons, List.foldl_cons]
      cases i with
      | zero =>
        obtain rfl : key = k := Option.some.inj hk
        rw [foldl_addField_other hkey, addField_same]
        rfl
      | succ i =>
        have hne : k ≠ key := by
          rintro rfl
          exact hkey (List.mem_of_getElem? hk)
        rw [ih hkeys (Nat.succ.inj hlength) hk, addField_other hne]
        rfl

theorem addLine_eq (keys : List Text) (samples : Text → List Text) (line : Text) :
    addLine keys samples line =
      if ((splitBars [] line).map pyStrip).length ≠ keys.length then samples
      else (keys.zip ((splitBars [] line).map pyStrip)).foldl addField samples := rfl

theorem samplesOf_cons (n i : Nat) (line : Text) (rawLines : List Text) :
    samplesOf n i (line :: rawLines) = samplesOf n i [line] ++ samplesOf n i rawLines :=
  List.filterMap_append (l := [line])

theorem addLine_samples (hkeys : keys.Nodup) (hk : keys[i]? = some k) (line : Text) :
    addLine keys samples line k = samples k ++ samplesOf keys.length i [line] := by
  rw [addLine_eq, samplesOf, List.filterMap_cons, List.filterMap_nil]
  dsimp only
  by_cases hlength : ((splitBars [] line).map pyStrip).length = keys.length
  · rw [if_neg (not_not.mpr hlength), if_pos hlength, foldl_addField hkeys hlength hk]
    cases (((splitBars [] line).map pyStrip)[i]?.filter (· ≠ [])) with
    | none => rfl
    | some val => rfl
  · rw [if_pos hlength, if_neg hlength, List.append_nil]

theorem dataMatrix_eq (hkeys : keys.Nodup) (hk : keys[i]? = some k) (rawLines : List Text) :
    dataMatrix keys rawLines k = samplesOf keys.length i rawLines := by
  have hfold (samples : Text → List Text) : rawLines.foldl (addLine keys) samples k =
      samples k ++ samplesOf keys.length i rawLines := by
    induction rawLines generalizing samples with
    | nil => exact (List.append_nil _).symm
    | cons line rawLines ih =>
      rw [List.foldl_cons, ih, addLine_samples hkeys hk, List.append_assoc, ← samplesOf_cons]
  exact hfold fun _ => []

theorem foldl_min_least (n : ℚ) (ns : List ℚ) : IsLeast {x | x ∈ n :: ns} (ns.foldl min n) := by
  have hmin : (n :: ns).min? = some (ns.foldl min n) := rfl
  exact List.min?_eq_some_iff.mp hmin

theorem foldl_max_greatest (n : ℚ) (ns : List ℚ) :
    IsGreatest {x | x ∈ n :: ns} (ns.foldl max n) := by
  have hmax : (n :: ns).max? = some (ns.foldl max n) := rfl
  exact List.max?_eq_some_iff.mp hmax

theorem mean_mem {readings : List ℚ} {lo hi : ℚ} (hne : readings ≠ [])
    (hlo : ∀ x ∈ readings, lo ≤ x) (hhi : ∀ x ∈ readings, x ≤ hi) :
    lo ≤ mean readings ∧ mean readings ≤ hi := by
  have hpos : (0 : ℚ) < readings.length := Nat.cast_pos.mpr (List.length_pos_iff.mpr hne)
  have hlow := List.card_nsmul_le_sum readings lo hlo
  have hhigh := List.sum_le_card_nsmul readings hi hhi
  rw [nsmul_eq_mul] at hlow hhigh
  exact ⟨(le_div_iff₀' hpos).mpr hlow, (div_le_iff₀' hpos).mpr hhigh⟩

theorem metricName_inj {s t : String} (h : metricName kt s = metricName kt t) : s = t := by
  have htext : s.toList = t.toList := List.append_cancel_left (List.append_cancel_right h)
  exact String.toList_inj.mp htext

theorem aggregate_names (float : Text → Option ℚ) (kt : Text × SysfsTargetConfig)
    (values : List Text) :
    (aggregate float kt.1 kt.2 values).map Prod.fst = reportedNames float kt values := by
  rw [aggregate, reportedNames]
  cases values.mapM float with
  | none => rfl
  | some nums =>
    cases nums with
    | nil => rfl
    | cons n nums => rfl

theorem aggregate_numeric (kt : Text × SysfsTargetConfig) {values : List Text} {nums : List ℚ}
    (h : values.mapM float = some nums) (hne : nums ≠ []) : ∃ lo hi : ℚ,
      aggregate float kt.1 kt.2 values = [(metricName kt "_min", .number lo),
        (metricName kt "_max", .number hi), (metricName kt "_avg",
          .number (roundHalfEven (mean (nums.map (· * kt.2.scale)) * 100) / 100))] ∧
      IsLeast {x | x ∈ nums.map (· * kt.2.scale)} lo ∧
      IsGreatest {x | x ∈ nums.map (· * kt.2.scale)} hi := by
  cases nums with
  | nil => exact (hne rfl).elim
  | cons n nums =>
    rw [aggregate, h]
    exact ⟨_, _, rfl, foldl_min_least _ _, foldl_max_greatest _ _⟩

theorem samplesOf_blank (n i : Nat) : samplesOf n i [[]] = [] := by
  have hvals : (splitBars [] []).map pyStrip = [[]] := by decide
  rw [samplesOf, List.filterMap_cons, hvals]
  dsimp only
  split
  · rfl
  · rename_i h
    split at h
    · cases i with
      | zero => cases h
      | succ i => cases h
    · cases h

theorem parseData_eq (h : samplesOf p.cfg.targets.length i rawLines ≠ []) :
    parseData float p rawLines = p.cfg.targets.flatMap fun kt =>
      aggregate float kt.1 kt.2 (dataMatrix p.keys rawLines kt.1) := by
  refine if_neg ?_
  rintro (rfl | rfl)
  · exact h rfl
  · exact h (samplesOf_blank _ i)

theorem dataMatrix_target (hkt : p.cfg.targets[i]? = some kt) (rawLines : List Text) :
    dataMatrix p.keys rawLines kt.1 = samplesOf p.cfg.targets.length i rawLines := by
  have hkey : p.keys[i]? = some kt.1 := by
    rw [keys, List.getElem?_map, hkt]
    rfl
  have hlength : p.keys.length = p.cfg.targets.length := List.length_map _
  have hkeys : p.keys.Nodup := p.cfg.keys_nodup
  rw [dataMatrix_eq hkeys hkey, hlength]

theorem later_names (hown : OwnNames float p rawLines i kt) {stat : String}
    (hstat : stat ∈ ["_min", "_max", "_avg"]) :
    ((p.cfg.targets.drop (i + 1)).flatMap fun kt =>
      aggregate float kt.1 kt.2 (dataMatrix p.keys rawLines kt.1)).filter
        (·.1 = metricName kt stat) = [] := by
  rw [List.filter_eq_nil_iff]
  rintro entry hentry hname
  obtain ⟨kt', hkt', hentry⟩ := List.mem_flatMap.mp hentry
  obtain ⟨j, hj⟩ := List.mem_iff_getElem?.mp hkt'
  rw [List.getElem?_drop] at hj
  refine hown (i + 1 + j) kt' (by omega) hj stat hstat ?_
  rw [← aggregate_names, ← dataMatrix_target hj, ← of_decide_eq_true hname]
  exact List.mem_map_of_mem hentry

/-- What a target assigns under a name of its own is what the dict holds in the end. -/
theorem metric_eq (hkt : p.cfg.targets[i]? = some kt)
    (hsome : samplesOf p.cfg.targets.length i rawLines ≠ [])
    (hown : OwnNames float p rawLines i kt) {stat : String} {m : Metric}
    (hstat : stat ∈ ["_min", "_max", "_avg"])
    (hm : (aggregate float kt.1 kt.2 (samplesOf p.cfg.targets.length i rawLines)).filter
      (·.1 = metricName kt stat) = [(metricName kt stat, m)]) :
    metric float p rawLines (metricName kt stat) = some m := by
  have hsplit : p.cfg.targets =
      p.cfg.targets.take i ++ kt :: p.cfg.targets.drop (i + 1) := by
    obtain ⟨hi, hget⟩ := List.getElem?_eq_some_iff.mp hkt
    rw [← hget, List.cons_getElem_drop_succ, List.take_append_drop]
  have hlater := later_names hown hstat
  rw [metric, parseData_eq hsome]
  conv_lhs => rw [hsplit]
  rw [List.flatMap_append, List.flatMap_cons, dataMatrix_target hkt, List.filter_append,
    List.filter_append, hm, hlater]
  rw [List.append_nil, List.getLast?_concat]
  rfl

theorem reported (hkt : p.cfg.targets[i]? = some kt) {nums : List ℚ}
    (hnums : (samplesOf p.cfg.targets.length i rawLines).mapM float = some nums)
    (hne : nums ≠ []) (hown : OwnNames float p rawLines i kt) :
    ∃ lo hi, Reported float p rawLines kt (nums.map (· * kt.2.scale)) lo
      (roundHalfEven (mean (nums.map (· * kt.2.scale)) * 100) / 100) hi := by
  have hsome : samplesOf p.cfg.targets.length i rawLines ≠ [] := by
    intro hnil
    rw [hnil, List.mapM_nil] at hnums
    exact hne (Option.some.inj hnums).symm
  have hname {s t : String} (hst : s ≠ t) : metricName kt s ≠ metricName kt t :=
    fun h => hst (metricName_inj h)
  obtain ⟨lo, hi, hentries, hlo, hhi⟩ := aggregate_numeric kt hnums hne
  refine ⟨lo, hi, ?_, ?_, ?_, hlo, hhi, rfl⟩
  · refine metric_eq hkt hsome hown (by decide) ?_
    rw [hentries]
    simp [hname]
  · refine metric_eq hkt hsome hown (by decide) ?_
    rw [hentries]
    simp [hname]
  · refine metric_eq hkt hsome hown (by decide) ?_
    rw [hentries]
    simp [hname]

/-- In hundredths, a bound of the mean is one of the rounded mean too if a whole number lies
between or the mean rounds away from it. -/
theorem le_rounded_iff {lo m : ℚ} (h : lo ≤ m) : lo ≤ (roundHalfEven (m * 100) : ℚ) / 100 ↔
    (∃ k : ℤ, lo ≤ k / 100 ∧ k / 100 ≤ m) ∨ RoundsUp (m * 100) := by
  have hpos : (0 : ℚ) < 100 := by norm_num
  have hle : lo * 100 ≤ m * 100 := mul_le_mul_of_nonneg_right h hpos.le
  simp only [le_div_iff₀ hpos, div_le_iff₀ hpos]
  exact le_roundHalfEven_iff hle

theorem rounded_le_iff {hi m : ℚ} (h : m ≤ hi) : (roundHalfEven (m * 100) : ℚ) / 100 ≤ hi ↔
    (∃ k : ℤ, m ≤ k / 100 ∧ k / 100 ≤ hi) ∨ ¬ RoundsUp (m * 100) := by
  have hpos : (0 : ℚ) < 100 := by norm_num
  have hle : m * 100 ≤ hi * 100 := mul_le_mul_of_nonneg_right h hpos.le
  simp only [le_div_iff₀ hpos, div_le_iff₀ hpos]
  exact roundHalfEven_le_iff hle

theorem abs_rounded_sub_le (m : ℚ) : |(roundHalfEven (m * 100) : ℚ) / 100 - m| ≤ 1 / 200 := by
  have hround := (nearestEven_roundHalfEven (m * 100)).le
  have hscale : (roundHalfEven (m * 100) : ℚ) / 100 - m =
      -((m * 100 - roundHalfEven (m * 100)) / 100) := by ring
  rw [hscale, abs_neg, abs_div, abs_of_pos (by norm_num : (0 : ℚ) < 100)]
  linarith

/-- The metrics are those of the samples, the average up to half a hundredth. -/
theorem metrics_of_samples (nums : List ℚ) (hkt : p.cfg.targets[i]? = some kt)
    (hnums : (samplesOf p.cfg.targets.length i rawLines).mapM float = some nums)
    (hne : nums ≠ []) (hown : OwnNames float p rawLines i kt) :
    ∃ lo avg hi m, m = mean (nums.map (· * kt.2.scale)) ∧
      Reported float p rawLines kt (nums.map (· * kt.2.scale)) lo avg hi ∧
      (lo ≤ m ∧ m ≤ hi) ∧ |avg - m| ≤ 1 / 200 ∧
      (lo ≤ avg ↔ (∃ k : ℤ, lo ≤ k / 100 ∧ k / 100 ≤ m) ∨ RoundsUp (m * 100)) ∧
      (avg ≤ hi ↔ (∃ k : ℤ, m ≤ k / 100 ∧ k / 100 ≤ hi) ∨ ¬ RoundsUp (m * 100)) := by
  obtain ⟨lo, hi, hreported⟩ := reported hkt hnums hne hown
  have hreadings : nums.map (· * kt.2.scale) ≠ [] := fun h => hne (List.map_eq_nil_iff.mp h)
  obtain ⟨hlo, hhi⟩ := mean_mem hreadings (fun x hx => hreported.least.2 hx)
    fun x hx => hreported.greatest.2 hx
  exact ⟨lo, _, hi, _, rfl, hreported, ⟨hlo, hhi⟩, abs_rounded_sub_le _, le_rounded_iff hlo,
    rounded_le_iff hhi⟩

end

/-- `float(text)` of a finite number, exactly. -/
def exactFloat (text : Text) : Option ℚ := do
  let (sign, body) := splitSign (← dropUnderscores ' ' text)
  return withSign sign (← decimal body)

def rail : Text × SysfsTargetConfig := ("rail".toList, ⟨"/rail".toList, 1 / 1000, "V".toList⟩)

def railPoller : BackgroundSysfsPoller := ⟨⟨1, [rail], by decide⟩, 7⟩

def shadowed : Text × SysfsTargetConfig := ("a".toList, ⟨"/a".toList, 1, "min".toList⟩)

def shadowing : Text × SysfsTargetConfig := ("a_min".toList, ⟨"/b".toList, 1, []⟩)

def shadowPoller : BackgroundSysfsPoller := ⟨⟨1, [shadowed, shadowing], by decide⟩, 7⟩

theorem metrics_of_samples_rail : ∃ lo avg hi m, m = mean ([1, 4].map (· * rail.2.scale)) ∧
    Reported exactFloat railPoller ["1".toList, "4".toList] rail ([1, 4].map (· * rail.2.scale))
      lo avg hi ∧
    (lo ≤ m ∧ m ≤ hi) ∧ |avg - m| ≤ 1 / 200 ∧
    (lo ≤ avg ↔ (∃ k : ℤ, lo ≤ k / 100 ∧ k / 100 ≤ m) ∨ RoundsUp (m * 100)) ∧
    (avg ≤ hi ↔ (∃ k : ℤ, m ≤ k / 100 ∧ k / 100 ≤ hi) ∨ ¬ RoundsUp (m * 100)) := by
  have hown : OwnNames exactFloat railPoller ["1".toList, "4".toList] 0 rail := by
    intro j kt' hj hkt'
    cases j with
    | zero => exact (Nat.lt_irrefl 0 hj).elim
    | succ j => cases hkt'
  exact metrics_of_samples (i := 0) [1, 4] rfl (by decide +kernel) (by decide) hown

/-- A millivolt is averaged to nothing, and one target may report under the name of another. -/
theorem inconsistent_metrics :
    (samplesOf 1 0 ["1".toList]).mapM exactFloat = some [1] ∧
    ¬ Consistent exactFloat railPoller ["1".toList] rail [1 / 1000] ∧
    (samplesOf 2 0 ["1||2".toList]).mapM exactFloat = some [1] ∧
    ¬ Consistent exactFloat shadowPoller ["1||2".toList] shadowed [1] := by
  refine ⟨by decide +kernel, ?_, by decide +kernel, ?_⟩
  · rintro ⟨lo, avg, hi, h, hle, -⟩
    have hlo : lo = 1 / 1000 := List.mem_singleton.mp h.least.1
    have havg : avg = 0 := h.rounded.trans (by decide +kernel)
    rw [hlo, havg] at hle
    norm_num at hle
  · rintro ⟨lo, avg, hi, h, -, -⟩
    have hlo : lo = 1 := List.mem_singleton.mp h.least.1
    have hmetric : metric exactFloat shadowPoller ["1||2".toList] (metricName shadowed "_min") =
        some (.number 2) := by decide +kernel
    have htwo := h.min_reported.symm.trans hmetric
    rw [hlo] at htwo
    injection htwo with hnumber
    injection hnumber with hone
    norm_num at hone

end BackgroundSysfsPoller

end MesCore

import MonCTL.CollectorApi.SubmitResults

/-!
# What One Bad Result Does to Its Batch

The loop over a batch converts what the results carry: times, metric values, component names,
interface rows, configuration texts. Some conversions are guarded and skip a value or a result;
the others end the request. Then nothing of the batch reaches the write buffer, the collector
keeps its rows, and posts them again.

Each step of the loop has here a lemma that says exactly when it does not raise. Together they
give the condition on a result, `Converts`, and the theorem on batches.
-/

namespace MonCTL.CollectorApi

open List

/-! ### The rates of an interface -/

/-- What the arithmetic of the rates may raise. -/
def IsArithmeticError (e : PyError) : Prop := e = .typeError ∨ e = .overflowError

variable {α : Type}

private theorem arithmetic_of_type {x : Except PyError α}
    (h : RaisesOnly x (· = .typeError)) : RaisesOnly x IsArithmeticError :=
  h.mono fun _ => Or.inl

private theorem arithmetic_of_overflow {x : Except PyError α}
    (h : RaisesOnly x (· = .overflowError)) : RaisesOnly x IsArithmeticError :=
  h.mono fun _ => Or.inr

theorem raisesOnly_lt (v w : PyValue) : RaisesOnly (v.lt w) IsArithmeticError :=
  arithmetic_of_type fun _ => PyValue.lt_error v w

theorem raisesOnly_linkSpeed (speed : PyValue) : RaisesOnly (linkSpeed speed) IsArithmeticError :=
  (arithmetic_of_type (PyValue.raisesOnly_num speed)).bind fun n =>
    arithmetic_of_overflow (PyNum.raisesOnly_mul n _)

theorem raisesOnly_maxRate (speed : PyValue) : RaisesOnly (maxRate speed) IsArithmeticError :=
  (raisesOnly_lt _ _).bind fun _ =>
    .ite ((raisesOnly_linkSpeed speed).bind fun n =>
      (arithmetic_of_overflow (PyNum.raisesOnly_mul n _)).bind fun r =>
        arithmetic_of_overflow r.raisesOnly_toFloat) (raisesOnly_pure _ _)

theorem raisesOnly_calculateRate (current previous : PyValue) (dt : ℚ) (speed : PyValue) :
    RaisesOnly (calculateRate current previous dt speed) IsArithmeticError := by
  refine .ite (raisesOnly_pure _ _) ((raisesOnly_lt _ _).bind fun _ => .ite (raisesOnly_pure _ _)
    (.ite (raisesOnly_pure _ _) ?_))
  refine (arithmetic_of_type (PyValue.raisesOnly_num current)).bind fun c =>
    (arithmetic_of_type (PyValue.raisesOnly_num previous)).bind fun p =>
      (arithmetic_of_overflow (PyNum.raisesOnly_sub c p)).bind fun delta =>
        (arithmetic_of_overflow (PyNum.raisesOnly_mul delta _)).bind fun bits =>
          (arithmetic_of_overflow bits.raisesOnly_toFloat).bind fun rate =>
            (raisesOnly_maxRate speed).bind fun limit => ?_
  exact .ite (raisesOnly_pure _ _) (raisesOnly_pure _ _)

theorem linkSpeed_float (f : PyFloat) :
    linkSpeed (.float f) = .ok (.float (f.mul (.finite 1000000))) := by
  have hfit : FitsFloat 1000000 := fitsFloat_of_natAbs_lt (by decide : _ < 2 ^ 20) (by decide)
  have hmillion : intToFloat 1000000 = .ok (.finite 1000000) := if_pos hfit
  simp [linkSpeed, PyValue.num, PyValue.num?, PyNum.mul, PyNum.toFloat, hmillion, bind, Except.bind,
    pure, Except.pure]

variable {speed : PyValue}

/-- When the largest plausible rate of a link could be worked out, its speed converts to a
float, unless it is zero or less. -/
theorem succeeds_capacity {limit : PyFloat} (hlimit : maxRate speed = .ok limit)
    (hslow : speed.lt (.int 0) = .ok false) (hzero : speed.beq (.int 0) = false) :
    Succeeds (linkSpeed speed >>= PyNum.toFloat) := by
  cases speed with
  | float f =>
    rw [linkSpeed_float]
    exact ⟨_, rfl⟩
  | bool b =>
    have hsmall : ∀ b : Bool, ((if b then 1 else 0) * 1000000 : ℤ).natAbs < 2 ^ 20 := by decide
    exact succeeds_intToFloat_iff.2 (fitsFloat_of_natAbs_lt (hsmall b) (by decide))
  | int i =>
    have hpos : 0 < i := by
      simp [PyValue.lt, PyValue.num?, PyNum.exact, PyFloat.lt] at hslow
      simp [PyValue.beq, PyValue.num?, PyNum.exact, PyFloat.eq] at hzero
      omega
    have hlt : (PyValue.int 0).lt (.int i) = .ok true := by
      simp [PyValue.lt, PyValue.num?, PyNum.exact, PyFloat.lt, hpos]
    obtain ⟨known, hknown, hlimit⟩ := StateExcept.bind_eq_ok.1 hlimit
    obtain rfl : true = known := Except.ok.inj (hlt.symm.trans hknown)
    obtain ⟨n, hn, hlimit⟩ := StateExcept.bind_eq_ok.1 hlimit
    obtain ⟨m, hmul, -⟩ := StateExcept.bind_eq_ok.1 hlimit
    cases hn
    obtain ⟨f, hf, -⟩ := StateExcept.bind_eq_ok.1 hmul
    exact ⟨f, hf⟩
  | _ => simp [PyValue.lt, PyValue.num?] at hslow

variable {current previous : PyValue} {dt : ℚ} {rate : PyFloat} {valid : Bool}

theorem exists_maxRate_of_calculateRate
    (h : calculateRate current previous dt speed = .ok (rate, valid))
    (hrate : rate.le (.finite 0) = false) : ∃ limit, maxRate speed = .ok limit := by
  have hzero : ∀ b : Bool, (.ok (.finite 0, b) : Except PyError _) ≠ .ok (rate, valid) := by
    rintro b ⟨⟩
    exact absurd hrate (by decide +kernel)
  unfold calculateRate at h
  split at h
  · exact absurd h (hzero _)
  obtain ⟨less, -, h⟩ := StateExcept.bind_eq_ok.1 h
  split at h
  · exact absurd h (hzero _)
  split at h
  · exact absurd h (hzero _)
  obtain ⟨c, -, h⟩ := StateExcept.bind_eq_ok.1 h
  obtain ⟨p, -, h⟩ := StateExcept.bind_eq_ok.1 h
  obtain ⟨delta, -, h⟩ := StateExcept.bind_eq_ok.1 h
  obtain ⟨bits, -, h⟩ := StateExcept.bind_eq_ok.1 h
  obtain ⟨f, -, h⟩ := StateExcept.bind_eq_ok.1 h
  obtain ⟨limit, hlimit, -⟩ := StateExcept.bind_eq_ok.1 h
  exact ⟨limit, hlimit⟩

theorem raisesOnly_calculateUtilization
    (h : calculateRate current previous dt speed = .ok (rate, valid)) :
    RaisesOnly (calculateUtilization rate speed) (· = .typeError) := by
  intro e he
  unfold calculateUtilization at he
  cases hslow : speed.lt (.int 0) with
  | error e' =>
    rw [hslow] at he
    cases he
    exact PyValue.lt_error _ _ hslow
  | ok slow =>
    rw [hslow] at he
    by_cases hidle : (slow || speed.beq (.int 0) || rate.le (.finite 0)) = true
    · simp [hidle, bind, Except.bind, pure, Except.pure] at he
    · obtain ⟨⟨rfl, hzero⟩, hrate⟩ : (slow = false ∧ speed.beq (.int 0) = false) ∧
          rate.le (.finite 0) = false := by simpa using hidle
      obtain ⟨limit, hlimit⟩ := exists_maxRate_of_calculateRate h hrate
      obtain ⟨capacity, hcapacity⟩ := succeeds_capacity hlimit hslow hzero
      obtain ⟨n, hn, hcapacity⟩ := StateExcept.bind_eq_ok.1 hcapacity
      simp [hzero, hrate, hn, hcapacity, bind, Except.bind, pure, Except.pure] at he

/-- A computation under the guard fails on an overflow only; what follows depends on whether it
had a value. -/
theorem succeeds_guarded_bind_iff {β : Type} {x : Except PyError α}
    {f : Option α → Except PyError β} (h : RaisesOnly x IsArithmeticError)
    (hnone : Succeeds (f none)) : Succeeds (guarded x >>= f) ↔
      x ≠ .error .overflowError ∧ ∀ a, x = .ok a → Succeeds (f (some a)) := by
  cases x with
  | ok a =>
    constructor
    · intro hf
      exact ⟨nofun, by rintro a' ⟨⟩; exact hf⟩
    · rintro ⟨-, hf⟩
      exact hf a rfl
  | error e =>
    obtain rfl | rfl := h e rfl
    · exact iff_of_true hnone ⟨nofun, nofun⟩
    · exact iff_of_false (not_succeeds_error _) fun hne => hne.1 rfl

/-- The octet counters of an interface have rates that floats can hold: none overflows against
the previous counters. The outgoing rate is computed when the incoming one has been. -/
def RatesFit (prev : Option PreviousCounters) (executedAt : ℤ)
    (inOctets outOctets speed : PyValue) : Prop :=
  ∀ p ts, prev = some p → p.executedAt = some ts →
    let dt := totalSeconds executedAt ts
    calculateRate inOctets p.inOctets dt speed ≠ .error .overflowError ∧
      (Succeeds (calculateRate inOctets p.inOctets dt speed) →
        calculateRate outOctets p.outOctets dt speed ≠ .error .overflowError)

variable {inOctets outOctets : PyValue}

theorem succeeds_ratesSince_iff {p : PreviousCounters} :
    Succeeds (ratesSince p dt inOctets outOctets speed) ↔
      calculateRate inOctets p.inOctets dt speed ≠ .error .overflowError ∧
        (Succeeds (calculateRate inOctets p.inOctets dt speed) →
          calculateRate outOctets p.outOctets dt speed ≠ .error .overflowError) := by
  unfold ratesSince
  rw [succeeds_guarded_bind_iff (raisesOnly_calculateRate _ _ _ _)]
  swap
  · exact succeeds_pure _
  refine and_congr_right fun _ => ?_
  constructor
  · rintro h ⟨⟨inRate, valid⟩, hin⟩
    have hout := h (inRate, valid) hin
    rw [succeeds_guarded_bind_iff (raisesOnly_calculateRate _ _ _ _)] at hout
    swap
    · exact succeeds_pure _
    exact hout.1
  · rintro h ⟨inRate, valid⟩ hin
    rw [succeeds_guarded_bind_iff (raisesOnly_calculateRate _ _ _ _)]
    swap
    · exact succeeds_pure _
    refine ⟨h ⟨_, hin⟩, ?_⟩
    rintro ⟨outRate, valid'⟩ hout
    -- The utilizations use the link speed that the rates were compared with.
    have hinUtil := raisesOnly_calculateUtilization hin
    have houtUtil := raisesOnly_calculateUtilization hout
    rw [succeeds_guarded_bind_iff (arithmetic_of_type hinUtil)]
    swap
    · exact succeeds_pure _
    refine ⟨fun he => (nomatch hinUtil _ he), fun inUtil _ => ?_⟩
    rw [succeeds_guarded_bind_iff (arithmetic_of_type houtUtil)]
    swap
    · exact succeeds_pure _
    exact ⟨fun he => (nomatch houtUtil _ he), fun outUtil _ => succeeds_pure _⟩

variable {executedAt : ℤ}

theorem succeeds_interfaceRates_iff {prev : Option PreviousCounters} :
    Succeeds (interfaceRates prev executedAt inOctets outOctets speed) ↔
      RatesFit prev executedAt inOctets outOctets speed := by
  cases prev with
  | none => exact iff_of_true ⟨_, rfl⟩ fun _ _ h => nomatch h
  | some p =>
  rw [interfaceRates]
  cases hts : p.executedAt with
  | none =>
    refine iff_of_true ⟨_, rfl⟩ fun p' ts hp hp' => ?_
    cases hp
    rw [hts] at hp'
    cases hp'
  | some ts =>
    rw [succeeds_ratesSince_iff]
    constructor
    · rintro h p' ts' ⟨⟩ hp'
      cases hts.symm.trans hp'
      exact h
    · exact fun h => h p ts rfl hts

/-! ### The content of a result -/

/-- A metric with a name has a value that converts to a float. -/
def FlatMetricConverts (m : PyDict) : Prop :=
  ∀ v, (m.lookup "name").isSome → m.lookup "value" = some v → v.FloatConvertible

/-- The types of a component's metrics can be looked up by position: they are no dictionary,
unless it is empty. -/
def TypesUsable (types : PyValue) : Prop :=
  types.Iterable ∧ ∀ es, types = .dict es → es = []

/-- A metric dictionary of the performance table: its component can be a key, its names and
values can be walked through together, and each value has a type and converts. -/
structure ComponentConverts (m : PyDict) : Prop where
  component : (m.getD "component" (.str "")).Hashable
  componentType : (m.getD "component_type" (.str "")).Hashable
  names : (m.getD "metric_names" (.list [])).Iterable
  values : (m.getD "metric_values" (.list [])).Iterable
  metrics : ∀ names values, (m.getD "metric_names" (.list [])).iter = .ok names →
    (m.getD "metric_values" (.list [])).iter = .ok values → ∀ p ∈ names.zip values,
      p.2.FloatConvertible ∧ TypesUsable (m.getD "metric_types" (.list []))

/-- An interface can be resolved: it is cached, or the device id is a UUID and the database
answers the lookup and takes the metadata, where there is any to write. -/
def Resolvable (a : InterfaceAnswers) (deviceId : String)
    (ifName ifIndex ifDescr ifAlias ifSpeedMbps : PyValue) : Prop :=
  a.cached ≠ none ∨ ∃ device, parseUuid deviceId = some device ∧
    ((∃ row, a.byName = .ok (some row) ∧ (row.currentIfIndex.beq ifIndex = false →
        Succeeds (a.flush { row with currentIfIndex := ifIndex }))) ∨
      (a.byName = .ok none ∧
        Succeeds (a.flush (newInterface a device ifName ifIndex ifDescr ifAlias ifSpeedMbps))))

/-- The interface that a row is about can be resolved. -/
def RowResolvable (t : Turn) (deviceId : String) (j : ℕ) (iface : PyDict) : Prop :=
  Resolvable (t.interface j) deviceId
    (iface.getD "if_name" (.str "")) (iface.getD "if_index" (.int 0)) (.str "")
    (iface.getD "if_alias" (.str "")) (iface.getD "if_speed_mbps" (.int 0))

/-- The execution time converts to a float. -/
def ExecutionTimeFits (r : CollectorResult) : Prop :=
  ∀ ms, r.executionTimeMs = some ms → FitsFloat ms

/-- What the branch of a result's table needs: components and metrics that can be taken apart,
interfaces that can be resolved, rates that do not overflow, texts that can be encoded, and an
execution time, unless there is no polled interface to write it for. -/
structure BranchConverts (t : Turn) (r : CollectorResult) (executedAt : ℤ) : Prop where
  components : targetTable t = "performance" → ∀ m ∈ r.metrics, ComponentConverts m
  interfaces : targetTable t = "interface" → ∀ j iface,
    (r.interfaceRows.getD [])[j]? = some iface → RowResolvable t (resultDevice t r) j iface
  rates : targetTable t = "interface" → ∀ j iface id,
    (r.interfaceRows.getD [])[j]? = some iface →
    resolveRow t (resultDevice t r) j iface = .ok (id, true) →
    RatesFit (t.previousCounters id) executedAt (iface.getD "in_octets" (.int 0))
      (iface.getD "out_octets" (.int 0)) (iface.getD "if_speed_mbps" (.int 0))
  texts : targetTable t = "config" → ∀ e ∈ r.configData.getD [], ∀ s, e.2 ≠ .surrogates s
  executionTime : (targetTable t = "interface" → ∃ j iface id,
    (r.interfaceRows.getD [])[j]? = some iface ∧
    resolveRow t (resultDevice t r) j iface = .ok (id, true)) → ExecutionTimeFits r

/-- **The content of a result converts**: its times are times, its metric values numbers, and
what the branch of its table needs is there in a usable form. -/
structure Converts (t : Turn) (r : CollectorResult) : Prop where
  timestamp : IsTimestamp r.timestamp
  startedAt : ∀ f, r.startedAt = some f → f.truthy → IsTimestamp f
  metrics : ∀ m ∈ r.metrics, FlatMetricConverts m
  branch : ∀ executedAt, fromTimestamp r.timestamp = .ok executedAt → BranchConverts t r executedAt

/-! ### When the steps succeed -/

variable {env : Env} {m : PyDict}

theorem succeeds_flatMetric_iff : Succeeds (flatMetric env m) ↔ FlatMetricConverts m := by
  unfold flatMetric FlatMetricConverts
  split
  · next name value hname hvalue =>
    rw [succeeds_bind_pure_iff, PyValue.succeeds_toFloat_iff, hname, hvalue]
    exact ⟨by rintro h v - ⟨⟩; exact h, fun h => h value rfl rfl⟩
  · next h =>
    refine iff_of_true (succeeds_pure _) fun v hname hvalue => ?_
    obtain ⟨name, hname⟩ := Option.isSome_iff_exists.1 hname
    exact absurd hvalue (h name v hname)

theorem succeeds_executionTime_iff {r : CollectorResult} :
    Succeeds (executionTime r) ↔ ExecutionTimeFits r := by
  unfold executionTime ExecutionTimeFits
  split
  · next h => exact iff_of_true (succeeds_ok _) (by simp [h])
  · next ms h =>
    split
    · next hzero =>
      refine iff_of_true (succeeds_ok _) fun ms' hms => ?_
      obtain rfl : ms = ms' := Option.some.inj (h.symm.trans hms)
      subst hzero
      exact fitsFloat_of_natAbs_lt (by decide : _ < 2 ^ 1) (by decide)
    · rw [h]
      exact succeeds_map_iff.trans (succeeds_intToFloat_iff.trans
        ⟨by rintro hms ms' ⟨⟩; exact hms, fun hms => hms ms rfl⟩)

variable {deviceId : String}

theorem succeeds_resolveInterfaceId_iff {a : InterfaceAnswers}
    {ifName ifIndex ifDescr ifAlias ifSpeedMbps : PyValue} :
    Succeeds (resolveInterfaceId a deviceId ifName ifIndex ifDescr ifAlias ifSpeedMbps) ↔
      Resolvable a deviceId ifName ifIndex ifDescr ifAlias ifSpeedMbps := by
  obtain ⟨cached, byId, byName, flush, newId, pollingAfterRules⟩ := a
  cases cached with
  | some cached =>
    refine iff_of_true ?_ (.inl nofun)
    simp only [resolveInterfaceId]
    split
    · exact succeeds_ok _
    · split
      · exact succeeds_ok _
      · exact succeeds_ok _
  | none =>
  cases hdevice : parseUuid deviceId with
  | none => simp [resolveInterfaceId, Resolvable, hdevice]
  | some device =>
  cases byName with
  | error e =>
    simp [resolveInterfaceId, Resolvable, hdevice, bind, Except.bind]
  | ok found =>
  cases found with
  | none => simp [resolveInterfaceId, Resolvable, hdevice]
  | some row =>
    simp only [resolveInterfaceId, Resolvable, hdevice]
    cases hindex : row.currentIfIndex.beq ifIndex with
    | true => simp [hindex]
    | false => simp [hindex]

variable {types : PyValue}

theorem TypesUsable.succeeds_metricType (h : TypesUsable types) (i : ℕ) :
    Succeeds (metricType types i) := by
  obtain ⟨n, hn⟩ := PyValue.succeeds_len_iff.2 h.1
  refine succeeds_bind_iff.2 ⟨n, hn, ?_⟩
  split
  · next hi =>
    refine (PyValue.succeeds_index_iff hn hi).2 fun es hes => ?_
    subst hes
    rw [h.2 es rfl] at hn
    cases hn
    exact absurd hi (Nat.not_lt_zero i)
  · exact succeeds_pure _

theorem typesUsable_of_succeeds (h : Succeeds (metricType types 0)) : TypesUsable types := by
  obtain ⟨n, hn, h⟩ := succeeds_bind_iff.1 h
  refine ⟨PyValue.succeeds_len_iff.1 ⟨n, hn⟩, ?_⟩
  rintro es rfl
  cases es with
  | nil => rfl
  | cons e es =>
    cases hn
    exact absurd h (not_succeeds_error _)

theorem succeeds_typedMetric_iff {m : (PyValue × PyValue) × ℕ} :
    Succeeds (typedMetric env types m) ↔
      m.1.2.FloatConvertible ∧ Succeeds (metricType types m.2) := by
  rw [typedMetric, succeeds_bind_of_iff fun _ _ => succeeds_bind_pure_iff,
    PyValue.succeeds_toFloat_iff]

theorem succeeds_zippedMetrics_iff : Succeeds (zippedMetrics env m) ↔
      (m.getD "metric_names" (.list [])).Iterable ∧ (m.getD "metric_values" (.list [])).Iterable ∧
      ∀ names values, (m.getD "metric_names" (.list [])).iter = .ok names →
        (m.getD "metric_values" (.list [])).iter = .ok values → ∀ p ∈ names.zip values,
          p.2.FloatConvertible ∧ TypesUsable (m.getD "metric_types" (.list [])) := by
  constructor
  · intro h
    obtain ⟨names, hnames, h⟩ := succeeds_bind_iff.1 h
    obtain ⟨values, hvalues, h⟩ := succeeds_bind_iff.1 h
    refine ⟨PyValue.succeeds_iter_iff.1 ⟨_, hnames⟩, PyValue.succeeds_iter_iff.1 ⟨_, hvalues⟩, ?_⟩
    intro names' values' hnames' hvalues' p hp
    cases hnames.symm.trans hnames'
    cases hvalues.symm.trans hvalues'
    have hround : ∀ i (hi : i < (names.zip values).length),
        ((names.zip values)[i]).2.FloatConvertible ∧
          Succeeds (metricType (m.getD "metric_types" (.list [])) i) := fun i hi =>
      succeeds_typedMetric_iff.1 (succeeds_mapM_iff.1 h _
        (List.mk_mem_zipIdx_iff_getElem?.2 (getElem?_eq_getElem hi)))
    obtain ⟨i, hi, rfl⟩ := getElem_of_mem hp
    exact ⟨(hround i hi).1, typesUsable_of_succeeds (hround 0 (Nat.zero_lt_of_lt hi)).2⟩
  · rintro ⟨hnames, hvalues, h⟩
    obtain ⟨names, hnames⟩ := PyValue.succeeds_iter_iff.2 hnames
    obtain ⟨values, hvalues⟩ := PyValue.succeeds_iter_iff.2 hvalues
    refine succeeds_bind_iff.2 ⟨names, hnames, succeeds_bind_iff.2 ⟨values, hvalues, ?_⟩⟩
    refine succeeds_mapM_iff.2 fun x hx => succeeds_typedMetric_iff.2 ?_
    have hp := h names values hnames hvalues x.1 (fst_mem_of_mem_zipIdx hx)
    exact ⟨hp.1, hp.2.succeeds_metricType x.2⟩

theorem succeeds_metricComponent_iff (hflat : FlatMetricConverts m) :
    Succeeds (metricComponent env m) ↔ ComponentConverts m := by
  have hnamed : Succeeds (namedMetric env m) := by
    unfold namedMetric
    split
    · exact succeeds_pure _
    · exact succeeds_bind_pure_iff.2 (succeeds_flatMetric_iff.2 hflat)
  have hkey : Succeeds (componentKey m) ↔ (m.getD "component" (.str "")).Hashable ∧
      (m.getD "component_type" (.str "")).Hashable := by
    simp [componentKey]
  rw [metricComponent, succeeds_bind_of_iff (P := Succeeds (zippedMetrics env m)), hkey,
    succeeds_zippedMetrics_iff]
  · constructor
    · rintro ⟨⟨hc, ht⟩, hn, hv, hm⟩
      exact ⟨hc, ht, hn, hv, hm⟩
    · rintro ⟨hc, ht, hn, hv, hm⟩
      exact ⟨⟨hc, ht⟩, hn, hv, hm⟩
  · intro key _
    rw [succeeds_bind_of_iff (P := True), and_true]
    intro _ _
    exact iff_of_true (succeeds_bind_pure_iff.2 hnamed) trivial

/-! ### When the branches succeed -/

theorem addComponent_ne_nil (groups : List Component) (c : Component) : addComponent groups c ≠
    [] := by
  unfold addComponent
  split
  · next h =>
    obtain ⟨g, hg, -⟩ := List.any_eq_true.1 h
    exact fun hnil => List.ne_nil_of_mem hg (List.map_eq_nil_iff.1 hnil)
  · exact append_ne_nil_of_right_ne_nil _ (cons_ne_nil _ _)

theorem foldl_addComponent_ne_nil {components : List Component} (h : components ≠ []) :
    components.foldl addComponent [] ≠ [] := by
  induction components using List.reverseRecOn with
  | nil => exact absurd rfl h
  | append_singleton components c _ =>
    rw [foldl_append]
    exact addComponent_ne_nil _ _

variable {t : Turn} {c : ResultContext}

theorem succeeds_performanceRows_iff
    (hflat : ∀ m ∈ c.result.metrics, FlatMetricConverts m) (hne : c.result.metrics ≠ []) :
    Succeeds (performanceRows env t c) ↔
      (∀ m ∈ c.result.metrics, ComponentConverts m) ∧ ExecutionTimeFits c.result := by
  have hrow : ∀ g, Succeeds (performanceRow t c g) ↔ ExecutionTimeFits c.result := fun g =>
    succeeds_bind_pure_iff.trans succeeds_executionTime_iff
  have hgroups : ∀ components, c.result.metrics.mapM (metricComponent env) = .ok components →
      (Succeeds ((components.foldl addComponent []).mapM (performanceRow t c)) ↔
        ExecutionTimeFits c.result) := by
    intro components h
    have hcomponents : components ≠ [] := by
      rintro rfl
      exact hne (List.forall₂_nil_right_iff.1 (mapM_eq_ok_iff.1 h))
    obtain ⟨g, hg⟩ := exists_mem_of_ne_nil _ (foldl_addComponent_ne_nil hcomponents)
    rw [succeeds_mapM_iff]
    exact ⟨fun h => (hrow g).1 (h g hg), fun h g _ => (hrow g).2 h⟩
  rw [performanceRows, succeeds_bind_of_iff hgroups, succeeds_mapM_iff]
  refine and_congr_left fun _ => forall₂_congr fun m hm => ?_
  exact succeeds_metricComponent_iff (hflat m hm)

theorem succeeds_configText_iff {v : PyValue} : Succeeds (configText env v) ↔ ∀ s,
    v ≠ .surrogates s := by
  cases v <;> simp [configText, Env.str]

theorem succeeds_configRows_iff {configData : PyDict} : Succeeds (configRows env c configData) ↔
      ExecutionTimeFits c.result ∧ ∀ e ∈ configData, ∀ s, e.2 ≠ .surrogates s := by
  rw [configRows, succeeds_bind_of_iff (P := ∀ e ∈ configData, ∀ s, e.2 ≠ .surrogates s),
    succeeds_executionTime_iff]
  intro f _
  rw [succeeds_mapM_iff]
  exact forall₂_congr fun e _ => succeeds_bind_pure_iff.trans succeeds_configText_iff

theorem succeeds_packetLoss {metrics : List PyDict} (h : ∀ m ∈ metrics, FlatMetricConverts m) :
    Succeeds (packetLoss metrics) := by
  unfold packetLoss
  split
  · exact succeeds_ok _
  · next m hfind =>
    have hname : (m.lookup "name").isSome := by
      have hbeq := find?_some hfind
      cases hlookup : m.lookup "name" with
      | none => simp [PyDict.getD, hlookup, PyValue.beq, PyValue.num?] at hbeq
      | some name => rfl
    have hvalue : (m.getD "value" (.int 0)).FloatConvertible := by
      unfold PyDict.getD
      cases hlookup : m.lookup "value" with
      | none => exact fitsFloat_of_natAbs_lt (by decide : _ < 2 ^ 1) (by decide)
      | some v => exact h m (mem_of_find?_eq_some hfind) v hname hlookup
    obtain ⟨loss, hloss⟩ := PyValue.succeeds_toFloat_iff.2 hvalue
    rw [hloss]
    exact succeeds_pure _

theorem succeeds_defaultRow_iff {table : String}
    (h : ∀ m ∈ c.result.metrics, FlatMetricConverts m) :
    Succeeds (defaultRow c table) ↔ ExecutionTimeFits c.result := by
  obtain ⟨loss, hloss⟩ := succeeds_packetLoss h
  rw [defaultRow, hloss, ok_bind, succeeds_bind_pure_iff, succeeds_executionTime_iff]

variable {rows : List PyDict}

theorem succeeds_resolveInterfaces_iff : Succeeds (resolveInterfaces t deviceId rows) ↔
      ∀ j iface, rows[j]? = some iface → RowResolvable t deviceId j iface := by
  rw [resolveInterfaces, succeeds_bind_pure_iff, succeeds_mapM_iff]
  constructor
  · intro h j iface hiface
    have hround := h (iface, j) (List.mk_mem_zipIdx_iff_getElem?.2 hiface)
    exact succeeds_resolveInterfaceId_iff.1 (succeeds_bind_pure_iff.1 hround)
  · intro h x hx
    have hrow := h x.2 x.1 (List.mem_zipIdx_iff_getElem?.1 hx)
    exact succeeds_bind_pure_iff.2 (succeeds_resolveInterfaceId_iff.2 hrow)

theorem mem_resolveInterfaces_iff
    {resolved : List ResolvedInterface} (h : resolveInterfaces t deviceId rows = .ok resolved)
    (ri : ResolvedInterface) : ri ∈ resolved ↔ ∃ j, rows[j]? = some ri.iface ∧
      resolveRow t deviceId j ri.iface = .ok (ri.interfaceId, true) := by
  obtain ⟨found, hfound, hresolved⟩ := StateExcept.bind_eq_ok.1 h
  cases hresolved
  rw [mem_filterMap]
  constructor
  · rintro ⟨_, hmem, rfl⟩
    obtain ⟨⟨iface, j⟩, hx, hround⟩ := (mem_of_mapM_eq_ok hfound _).1 hmem
    obtain ⟨⟨interfaceId, pollingEnabled⟩, hrow, hround⟩ := StateExcept.bind_eq_ok.1 hround
    cases pollingEnabled with
    | false => cases hround
    | true =>
      cases hround
      exact ⟨j, List.mk_mem_zipIdx_iff_getElem?.1 hx, hrow⟩
  · rintro ⟨j, hj, hrow⟩
    refine ⟨some ri, (mem_of_mapM_eq_ok hfound _).2
      ⟨(ri.iface, j), List.mk_mem_zipIdx_iff_getElem?.2 hj, ?_⟩, rfl⟩
    exact StateExcept.bind_eq_ok.2 ⟨_, hrow, rfl⟩

theorem succeeds_interfaceRow_iff {ri : ResolvedInterface} : Succeeds (interfaceRow t c ri) ↔
      RatesFit (t.previousCounters ri.interfaceId) c.executedAt
        (ri.iface.getD "in_octets" (.int 0)) (ri.iface.getD "out_octets" (.int 0))
        (ri.iface.getD "if_speed_mbps" (.int 0)) ∧ ExecutionTimeFits c.result := by
  rw [interfaceRow, succeeds_bind_of_iff fun _ _ => succeeds_bind_pure_iff,
    succeeds_interfaceRates_iff, succeeds_executionTime_iff]

theorem succeeds_interfaceRows_iff : Succeeds (interfaceRows t c rows) ↔
      (∀ j iface, rows[j]? = some iface → RowResolvable t c.deviceId j iface) ∧
      ∀ j iface id, rows[j]? = some iface → resolveRow t c.deviceId j iface = .ok (id, true) →
        RatesFit (t.previousCounters id) c.executedAt (iface.getD "in_octets" (.int 0))
          (iface.getD "out_octets" (.int 0)) (iface.getD "if_speed_mbps" (.int 0)) ∧
        ExecutionTimeFits c.result := by
  have hrest : ∀ resolved, resolveInterfaces t c.deviceId rows = .ok resolved →
      (Succeeds (if resolved.isEmpty then pure none else do
        return some (← resolved.mapM (interfaceRow t c)) : Except PyError (Option (List Row))) ↔
      ∀ ri ∈ resolved, Succeeds (interfaceRow t c ri)) := by
    intro resolved _
    cases resolved with
    | nil => exact iff_of_true (succeeds_pure _) (forall_mem_nil _)
    | cons ri resolved => exact succeeds_bind_pure_iff.trans succeeds_mapM_iff
  rw [interfaceRows, succeeds_bind_iff, ← succeeds_resolveInterfaces_iff]
  constructor
  · rintro ⟨resolved, hresolved, h⟩
    refine ⟨⟨resolved, hresolved⟩, fun j iface id hj hrow => ?_⟩
    have hmem := (mem_resolveInterfaces_iff hresolved ⟨id, iface⟩).2 ⟨j, hj, hrow⟩
    exact succeeds_interfaceRow_iff.1 ((hrest resolved hresolved).1 h _ hmem)
  · rintro ⟨⟨resolved, hresolved⟩, h⟩
    refine ⟨resolved, hresolved, (hrest resolved hresolved).2 fun ri hri => ?_⟩
    obtain ⟨j, hj, hrow⟩ := (mem_resolveInterfaces_iff hresolved ri).1 hri
    exact succeeds_interfaceRow_iff.2 (h j ri.iface ri.interfaceId hj hrow)

/-! ### When a result has rows -/

theorem succeeds_startTime_iff {r : CollectorResult} : Succeeds (startTime r executedAt) ↔
      ∀ f, r.startedAt = some f → f.truthy → IsTimestamp f := by
  unfold startTime firstTruthy
  cases r.startedAt with
  | none => exact iff_of_true (succeeds_ok _) nofun
  | some f =>
    cases htruthy : f.truthy with
    | false => simp [htruthy]
    | true => simp [htruthy, succeeds_fromTimestamp_iff]

variable {collectorUuid assignmentId : Uuid} {collectorNode : String}

/-- The facts shared by the branches can be worked out when the times are times and the metric
values numbers. -/
theorem succeeds_resultContext_iff {r : CollectorResult} :
    Succeeds (resultContext env t collectorUuid collectorNode assignmentId r) ↔
      IsTimestamp r.timestamp ∧ (∀ m ∈ r.metrics, FlatMetricConverts m) ∧
        ∀ f, r.startedAt = some f → f.truthy → IsTimestamp f := by
  rw [resultContext, succeeds_bind_of_iff fun executedAt _ => succeeds_bind_of_iff fun metrics _ =>
    succeeds_bind_pure_iff.trans succeeds_startTime_iff, succeeds_fromTimestamp_iff,
    succeeds_mapM_iff]
  exact and_congr_right fun _ => and_congr_left fun _ =>
    forall₂_congr fun m _ => succeeds_flatMetric_iff

theorem resultContext_spec {r : CollectorResult}
    (h : resultContext env t collectorUuid collectorNode assignmentId r = .ok c) :
    c.result = r ∧ c.deviceId = resultDevice t r ∧
      fromTimestamp r.timestamp = .ok c.executedAt := by
  obtain ⟨executedAt, hexecuted, h⟩ := StateExcept.bind_eq_ok.1 h
  obtain ⟨metrics, -, h⟩ := StateExcept.bind_eq_ok.1 h
  obtain ⟨startedAt, -, h⟩ := StateExcept.bind_eq_ok.1 h
  cases h
  exact ⟨rfl, rfl, hexecuted⟩

theorem succeeds_branchRows_iff (hflat : ∀ m ∈ c.result.metrics, FlatMetricConverts m)
    (hdevice : c.deviceId = resultDevice t c.result) :
    Succeeds (branchRows env t c) ↔ BranchConverts t c.result c.executedAt := by
  unfold branchRows
  dsimp only
  split
  · next hperf =>
    have hne : targetTable t ≠ "interface" := by simp [hperf.1]
    rw [succeeds_bind_pure_iff, succeeds_performanceRows_iff hflat hperf.2]
    constructor
    · rintro ⟨hcomponents, htime⟩
      exact ⟨fun _ => hcomponents, fun h => absurd h hne, fun h => absurd h hne,
        by simp [hperf.1], fun _ => htime⟩
    · intro h
      exact ⟨h.components hperf.1, h.executionTime fun h => absurd h hne⟩
  · next hperf =>
    have hcomponents : targetTable t = "performance" →
        ∀ m ∈ c.result.metrics, ComponentConverts m := by
      intro htable m hm
      exact absurd ⟨htable, List.ne_nil_of_mem hm⟩ hperf
    split
    · next hiface =>
      have htexts : targetTable t ≠ "config" := by simp [hiface]
      have hrows : Succeeds (if c.result.interfaceRows.getD [] = [] then pure none else
          interfaceRows t c (c.result.interfaceRows.getD []) : Except PyError (Option (List Row))) ↔
          Succeeds (interfaceRows t c (c.result.interfaceRows.getD [])) := by
        split
        · next hnil =>
          rw [hnil]
          exact iff_of_true (succeeds_pure _) ⟨none, rfl⟩
        · rfl
      rw [hrows, succeeds_interfaceRows_iff, hdevice]
      constructor
      · rintro ⟨hresolvable, h⟩
        refine ⟨hcomponents, fun _ => hresolvable, fun _ j iface id hj hrow =>
          (h j iface id hj hrow).1, fun h => absurd h htexts, fun hpolled => ?_⟩
        obtain ⟨j, iface, id, hj, hrow⟩ := hpolled hiface
        exact (h j iface id hj hrow).2
      · intro h
        exact ⟨h.interfaces hiface, fun j iface id hj hrow => ⟨h.rates hiface j iface id hj hrow,
          h.executionTime fun _ => ⟨j, iface, id, hj, hrow⟩⟩⟩
    · next hiface =>
      split
      · next hconfig =>
        rw [succeeds_bind_pure_iff, succeeds_configRows_iff]
        constructor
        · rintro ⟨htime, htexts⟩
          exact ⟨hcomponents, fun h => absurd h hiface, fun h => absurd h hiface,
            fun _ => htexts, fun _ => htime⟩
        · intro h
          exact ⟨h.executionTime fun h => absurd h hiface, h.texts hconfig.1⟩
      · next hconfig =>
        rw [succeeds_bind_pure_iff, succeeds_defaultRow_iff hflat]
        constructor
        · intro htime
          refine ⟨hcomponents, fun h => absurd h hiface, fun h => absurd h hiface,
            fun htable e he => ?_, fun _ => htime⟩
          exact absurd ⟨htable, List.ne_nil_of_mem he⟩ hconfig
        · intro h
          exact h.executionTime fun h => absurd h hiface

/-- **The rows of a result can be built exactly when its content converts.** -/
theorem succeeds_resultRows_iff {r : CollectorResult} :
    Succeeds (resultRows env t collectorUuid collectorNode assignmentId r) ↔ Converts t r := by
  rw [resultRows, succeeds_bind_iff]
  constructor
  · rintro ⟨c, hc, h⟩
    obtain ⟨htimestamp, hmetrics, hstarted⟩ := succeeds_resultContext_iff.1 ⟨c, hc⟩
    obtain ⟨rfl, hdevice, hexecuted⟩ := resultContext_spec hc
    refine ⟨htimestamp, hstarted, hmetrics, fun executedAt hexecuted' => ?_⟩
    obtain rfl : c.executedAt = executedAt := Except.ok.inj (hexecuted.symm.trans hexecuted')
    exact (succeeds_branchRows_iff hmetrics hdevice).1 h
  · intro h
    obtain ⟨c, hc⟩ := succeeds_resultContext_iff.2 ⟨h.timestamp, h.metrics, h.startedAt⟩
    obtain ⟨rfl, hdevice, hexecuted⟩ := resultContext_spec hc
    exact ⟨c, hc, (succeeds_branchRows_iff h.metrics hdevice).2 (h.branch _ hexecuted)⟩

/-! ### When the loop succeeds -/

/-- The assignment a result is for, if its job id names one. -/
def CollectorResult.assignment? (r : CollectorResult) : Option Uuid :=
  if r.isDiscovery then none else parseUuid r.jobId

/-- The caller owns an assignment; without an identity nothing is checked. -/
def Owns (env : Env) (caller : Option Collector) (assignmentId : Uuid) : Prop :=
  ∀ c, caller = some c → callerOwnsAssignment env.fleet c assignmentId = true

/-- **A result harms no other**: if it names an assignment, the database answers the ownership
check, and if the caller owns the assignment, the content converts. -/
def Harmless (env : Env) (t : Turn) (caller : Option Collector) (r : CollectorResult) : Prop :=
  ∀ assignmentId, r.assignment? = some assignmentId →
    (caller ≠ none → Succeeds t.session) ∧ (Owns env caller assignmentId → Converts t r)

theorem succeeds_ownedVerdict_iff {r : CollectorResult} :
    Succeeds (ownedVerdict env t collectorUuid collectorNode assignmentId r) ↔ Converts t r := by
  rw [ownedVerdict, succeeds_bind_of_iff (P := True), and_true, succeeds_resultRows_iff]
  rintro (_ | rows) _
  · exact iff_of_true (succeeds_pure _) trivial
  · exact iff_of_true (succeeds_pure _) trivial

variable {caller : Option Collector}

theorem succeeds_checkedVerdict_iff {r : CollectorResult} :
    Succeeds (checkedVerdict env t caller collectorNode assignmentId r) ↔
      (caller ≠ none → Succeeds t.session) ∧ (Owns env caller assignmentId → Converts t r) := by
  cases caller with
  | none => simp [checkedVerdict, Owns, succeeds_ownedVerdict_iff]
  | some c =>
    rw [checkedVerdict, succeeds_bind_of_iff (P := Owns env (some c) assignmentId → Converts t r)]
    · simp
    · intro _ _
      cases howns : callerOwnsAssignment env.fleet c assignmentId with
      | true => simp [Owns, howns, succeeds_ownedVerdict_iff]
      | false => simp [Owns, howns]

theorem succeeds_processResult_iff {r : CollectorResult} :
    Succeeds (processResult env t caller collectorNode r) ↔ Harmless env t caller r := by
  unfold processResult Harmless CollectorResult.assignment?
  by_cases hdiscovery : r.isDiscovery
  · simp only [hdiscovery, if_true]
    refine iff_of_true ?_ nofun
    split
    · exact succeeds_ok _
    · exact succeeds_ok _
  · simp only [hdiscovery, Bool.false_eq_true, if_false]
    cases parseUuid r.jobId with
    | none => exact iff_of_true (succeeds_ok _) nofun
    | some assignmentId =>
      exact succeeds_checkedVerdict_iff.trans
        ⟨by rintro h _ ⟨⟩; exact h, fun h => h assignmentId rfl⟩

variable {req : SubmitResultsRequest}

theorem succeeds_processResults_iff : Succeeds (processResults env caller req) ↔
      ∀ i r, req.results[i]? = some r → Harmless env (env.turn i) caller r := by
  rw [processResults, succeeds_mapM_iff]
  constructor
  · intro h i r hr
    exact succeeds_processResult_iff.1 (h (r, i) (List.mk_mem_zipIdx_iff_getElem?.2 hr))
  · intro h x hx
    exact succeeds_processResult_iff.2 (h x.2 x.1 (List.mem_zipIdx_iff_getElem?.1 hx))

theorem processResult_of_owns {r : CollectorResult} {v : Verdict}
    {rows : List Row} (hid : r.assignment? = some assignmentId)
    (howns : Owns env caller assignmentId)
    (hrows : resultRows env t ((caller.map Collector.id).getD nilUuid) collectorNode assignmentId r
      = .ok (some rows))
    (h : processResult env t caller collectorNode r = .ok v) : v = .accepted rows := by
  unfold CollectorResult.assignment? at hid
  split at hid
  · cases hid
  next hdiscovery =>
  have howned : ownedVerdict env t ((caller.map Collector.id).getD nilUuid) collectorNode
      assignmentId r = .ok (.accepted rows) := StateExcept.bind_eq_ok.2 ⟨_, hrows, rfl⟩
  rw [processResult, if_neg hdiscovery, hid] at h
  cases caller with
  | none => exact Except.ok.inj (h.symm.trans howned)
  | some c =>
    obtain ⟨_, -, h⟩ := StateExcept.bind_eq_ok.1 h
    rw [if_pos (howns c rfl)] at h
    exact Except.ok.inj (h.symm.trans howned)

/-! ### The handler -/

/-- **No result blocks the rest of its batch**: the forwarder sees the batch as delivered, and
unless the whole batch had been ingested before, each result that the caller owns and whose own
rows can be built has them in the buffer. -/
structure NeverBlocks (env : Env) (s : Central) (caller : Caller) (req : SubmitResultsRequest) :
    Prop where
  delivered : Collector.marksSent (some (statusCode (submitResults env s caller req))) = true
  appended : ∀ response s', submitResults env s caller req = .ok (response, s') →
    response ≠ .duplicate → ∀ collector,
    resolveCallerCollector env.fleet caller req.collectorNode = .ok collector →
    ∀ i r assignmentId rows, req.results[i]? = some r → r.assignment? = some assignmentId →
    Owns env collector assignmentId →
    resultRows env (env.turn i) ((collector.map Collector.id).getD nilUuid) req.collectorNode
      assignmentId r = .ok (some rows) →
    ∀ row ∈ rows, row ∈ s'.rows row.table

/-- The caller is let in: its collector can be looked up, and is known where that is required. -/
def Admitted (env : Env) (caller : Caller) (req : SubmitResultsRequest)
    (collector : Option Collector) : Prop :=
  resolveCallerCollector env.fleet caller req.collectorNode = .ok collector ∧
    (env.requirePerCollectorAuth = true → collector ≠ none)

variable {s : Central}

/-- A batch that was not seen before succeeds when the caller is let in and the loop runs
through. -/
theorem submitResults_eq_ok_iff {caller : Caller} (hnew : s.isDuplicate req = false)
    {answer : Response × Central} :
    submitResults env s caller req = .ok answer ↔ ∃ collector verdicts,
      Admitted env caller req collector ∧ processResults env collector req = .ok verdicts ∧
        ingest s req verdicts = answer := by
  unfold submitResults batchVerdicts Admitted
  rw [hnew]
  cases resolveCallerCollector env.fleet caller req.collectorNode with
  | error e => simp [Except.map]
  | ok collector =>
    by_cases hrefused : collector = none ∧ env.requirePerCollectorAuth
    · simp [hrefused.1, hrefused.2, Except.map]
    · have hadmitted : env.requirePerCollectorAuth = true → ¬collector = none :=
        fun hauth hnone => hrefused ⟨hnone, hauth⟩
      cases hverdicts : processResults env collector req with
      | error e => simp [hrefused, hverdicts, Except.map]
      | ok verdicts => simpa [hrefused, hverdicts, Except.map] using fun _ => hadmitted

theorem appended_of_submitResults {s' : Central} {caller : Caller} {response : Response}
    (h : submitResults env s caller req = .ok (response, s')) (hresponse : response ≠ .duplicate)
    {collector : Option Collector}
    (hcollector : resolveCallerCollector env.fleet caller req.collectorNode = .ok collector)
    {i : ℕ} {r : CollectorResult} {assignmentId : Uuid} {rows : List Row}
    (hr : req.results[i]? = some r) (hid : r.assignment? = some assignmentId)
    (howns : Owns env collector assignmentId)
    (hrows : resultRows env (env.turn i) ((collector.map Collector.id).getD nilUuid)
      req.collectorNode assignmentId r = .ok (some rows)) {row : Row} (hrow : row ∈ rows) :
    row ∈ s'.rows row.table := by
  have hnew : s.isDuplicate req = false := by
    cases hdup : s.isDuplicate req with
    | false => rfl
    | true =>
      rw [submitResults, if_pos hdup] at h
      cases h
      exact absurd rfl hresponse
  obtain ⟨collector', verdicts, ⟨hcollector', -⟩, hverdicts, hingest⟩ :=
    (submitResults_eq_ok_iff hnew).1 h
  obtain rfl : collector' = collector := Except.ok.inj (hcollector'.symm.trans hcollector)
  -- The verdict of the result is among those of the loop, and its rows are these.
  obtain ⟨v, hv⟩ := succeeds_mapM_iff.1 ⟨_, hverdicts⟩ (r, i) (List.mk_mem_zipIdx_iff_getElem?.2 hr)
  have hmem : v ∈ verdicts := (mem_of_mapM_eq_ok hverdicts v).2
    ⟨(r, i), List.mk_mem_zipIdx_iff_getElem?.2 hr, hv⟩
  obtain rfl : v = .accepted rows := processResult_of_owns hid howns hrows hv
  obtain rfl : (s.appendRows verdicts).mark req = s' := (Prod.mk.inj hingest).2
  rw [rows_mark, rows_appendRows, mem_append, mem_filter]
  exact .inr ⟨List.mem_flatMap.2 ⟨_, hmem, hrow⟩, by simp⟩

/-- **A batch goes through exactly when every result in it is harmless** (or when it was ingested
before): each one that names an assignment finds the database able to answer, and, if the caller
owns the assignment, has content that converts. -/
theorem neverBlocks_iff (env : Env) (s : Central) (caller : Caller) (req : SubmitResultsRequest) :
    NeverBlocks env s caller req ↔ s.isDuplicate req = true ∨ ∃ collector,
      Admitted env caller req collector ∧
        ∀ i r, req.results[i]? = some r → Harmless env (env.turn i) collector r := by
  have hdelivered : NeverBlocks env s caller req ↔ Succeeds (submitResults env s caller req) := by
    rw [← marksSent_statusCode_iff]
    refine ⟨NeverBlocks.delivered, fun h => ⟨h, ?_⟩⟩
    intro response s' hok hresponse collector hcollector i r assignmentId rows hr hid howns hrows
      row hrow
    exact appended_of_submitResults hok hresponse hcollector hr hid howns hrows hrow
  rw [hdelivered]
  cases hdup : s.isDuplicate req with
  | true =>
    rw [submitResults, if_pos hdup]
    exact iff_of_true (succeeds_ok _) (.inl rfl)
  | false =>
    constructor
    · rintro ⟨answer, h⟩
      obtain ⟨collector, verdicts, hadmitted, hverdicts, -⟩ := (submitResults_eq_ok_iff hdup).1 h
      exact .inr ⟨collector, hadmitted, succeeds_processResults_iff.1 ⟨verdicts, hverdicts⟩⟩
    · rintro (h | ⟨collector, hadmitted, h⟩)
      · cases h
      · obtain ⟨verdicts, hverdicts⟩ := succeeds_processResults_iff.2 h
        exact ⟨_, (submitResults_eq_ok_iff hdup).2 ⟨collector, verdicts, hadmitted, hverdicts, rfl⟩⟩

/-! ### A batch that is never delivered -/

/-- A collector with two assignments that need no device. -/
def checksFleet : Fleet where
  collectors := [⟨"c1", "ACTIVE", none, some "host-1"⟩]
  groups := []
  devices := []
  assignments :=
    [⟨"11111111-1111-1111-1111-111111111111", none, none, true⟩,
      ⟨"22222222-2222-2222-2222-222222222222", none, none, true⟩]

/-- Answers of a database and a cache that know nothing. -/
def checksEnv : Env where
  fleet := checksFleet
  requirePerCollectorAuth := false
  turn := fun _ =>
    { session := .ok ()
      enrichment := none
      perfCounter := fun _ _ _ => none
      interface := fun _ =>
        { cached := none, byId := .ok none, byName := .ok none, flush := fun _ => .ok (),
          newId := nilUuid, pollingAfterRules := fun _ => none }
      previousCounters := fun _ => none }
  repr := fun _ => ""
  md5 := id

/-- A batch of a good result and one with a metric that has no value. -/
def checksRequest : SubmitResultsRequest where
  collectorNode := "host-1"
  results :=
    [{ jobId := "11111111-1111-1111-1111-111111111111", timestamp := .finite 1700000000,
        metrics := [[("name", .str "rtt"), ("value", .float (.finite 3))]] },
      { jobId := "22222222-2222-2222-2222-222222222222", timestamp := .finite 1700000000,
        metrics := [[("name", .str "temperature"), ("value", .none)]] }]
  batchId := some "b1"

/-- The value of one metric blocks the batch. -/
theorem checksRequest_not_neverBlocks : ¬NeverBlocks checksEnv {}
    { auth := .sharedSecret } checksRequest := by
  intro h
  have hstatus : statusCode (submitResults checksEnv {} { auth := .sharedSecret } checksRequest)
      = 500 := by decide +kernel
  have hsent := h.delivered
  rw [hstatus] at hsent
  exact absurd hsent (by decide)

end MonCTL.CollectorApi

import Mathlib.Data.List.Induction
import RecordCheck.Proofs.Results
import RecordCheck.Samples
import RecordCheck.Scenario.Expectation
import RecordCheck.Validation.Basic

/-! When an outcome is as expected: each demand that counts holds of it, and an error is asked for.
One demand is overlooked: the place of an error, where there is no error. -/

namespace RecordCheck

open Results

/-! ### Demands -/

namespace Demand

/-- What a demand says of an outcome. -/
def Holds : Demand → Except ValidationError Validated → Prop
  | success, .ok _ => True
  | error cause, .error e => e.cause = cause
  | errorAt place, .error e =>
    (∃ path, e.path? = some path ∧ path.text = place) ∨ e.path? = none ∧ place = ""
  | structuralError, .error e => e.isStructural = true
  | check address name passed, .ok t => ∃ node checks, t.node? address = some node ∧
      node.checks? = some checks ∧ checks.passed? name = some passed
  | checks address names, .ok t => ∃ node, t.node? address = some node ∧
      ((node.checks?.map Checks.names).getD []).Perm names
  | unwrapped address, .ok t => ∃ node, t.node? address = some node ∧ node.checks? = none
  | value v, .ok t => t.toValue.strictEq v = true
  | condition holds, .ok t => holds t = true
  | _, _ => False

section

variable {t : Validated}

@[simp] theorem holds_success : Holds .success (.ok t) := trivial

@[simp] theorem not_holds_error {cause : String} : ¬ Holds (.error cause) (.ok t) := id

@[simp] theorem not_holds_structuralError : ¬ Holds .structuralError (.ok t) := id

@[simp] theorem holds_value {v : Value} : Holds (.value v) (.ok t) ↔ t.toValue.strictEq v = true :=
  Iff.rfl

@[simp] theorem holds_condition {holds : Validated → Bool} :
    Holds (.condition holds) (.ok t) ↔ holds t = true := Iff.rfl

end

/-- The later of two demands takes the place of the earlier one. -/
def Replaces : Demand → Demand → Prop
  | error _, error _ | errorAt _, errorAt _ | value _, value _ | condition _, condition _ => True
  | _, _ => False

/-- A demand of a list that no later one takes the place of. -/
def Counts (demands : List Demand) (d : Demand) : Prop :=
  ∃ before after, demands = before ++ d :: after ∧ ∀ later ∈ after, ¬ later.Replaces d

/-- The demand is one on the tree of a success. -/
def OnTree : Demand → Prop
  | check .. | checks .. | unwrapped _ | value _ | condition _ => True
  | _ => False

/-- The demand asks for an error. -/
def AsksError : Demand → Prop
  | error _ | structuralError => True
  | _ => False

theorem not_replaces_success (d : Demand) : ¬ d.Replaces success := by
  cases d <;> simp [Replaces]

theorem not_counts_nil (d : Demand) : ¬ Counts [] d := by
  rintro ⟨before, after, h, -⟩
  simp at h

theorem counts_concat {demands : List Demand} {last d : Demand} :
    Counts (demands ++ [last]) d ↔ d = last ∨ Counts demands d ∧ ¬ last.Replaces d := by
  constructor
  · rintro ⟨before, after, h, hlater⟩
    rcases List.eq_nil_or_concat after with rfl | ⟨after, a, rfl⟩
    · exact .inl (List.append_inj_right' h rfl |> List.singleton_inj.mp).symm
    · rw [List.concat_eq_append] at h hlater
      rw [← List.cons_append, ← List.append_assoc] at h
      obtain ⟨rfl, hlast⟩ := List.append_inj' h rfl
      obtain rfl := List.singleton_inj.mp hlast
      rw [List.forall_mem_append] at hlater
      exact .inr ⟨⟨before, after, rfl, hlater.1⟩, hlater.2 last List.mem_cons_self⟩
  · rintro (rfl | ⟨⟨before, after, rfl, hlater⟩, hr⟩)
    · exact ⟨demands, [], rfl, by simp⟩
    · exact ⟨before, after ++ [last], by simp, by simpa [or_imp, forall_and] using ⟨hlater, hr⟩⟩

theorem Replaces.trans {a b c : Demand} (h : a.Replaces b) (h' : b.Replaces c) : a.Replaces c := by
  cases a <;> cases b <;> first | exact h.elim | (cases c <;> exact h')

theorem Replaces.onTree_iff {a b : Demand} (h : a.Replaces b) : a.OnTree ↔ b.OnTree := by
  cases a <;> cases b <;> first | exact h.elim | exact Iff.rfl

theorem Replaces.asksError_iff {a b : Demand} (h : a.Replaces b) : a.AsksError ↔ b.AsksError := by
  cases a <;> cases b <;> first | exact h.elim | exact Iff.rfl

/-- Where a demand is made, it counts or one that has taken its place does. -/
theorem exists_counts {demands : List Demand} {d : Demand} (h : d ∈ demands) :
    ∃ d', Counts demands d' ∧ (d' = d ∨ d'.Replaces d) := by
  induction demands using List.reverseRecOn with
  | nil => cases h
  | append_singleton demands last ih =>
    rcases List.mem_append.mp h with h | h
    · obtain ⟨d', hc, hd⟩ := ih h
      by_cases hr : last.Replaces d'
      · refine ⟨last, counts_concat.mpr (.inl rfl), .inr ?_⟩
        rcases hd with rfl | hd
        · exact hr
        · exact hr.trans hd
      · exact ⟨d', counts_concat.mpr (.inr ⟨hc, hr⟩), hd⟩
    · obtain rfl := List.mem_singleton.mp h
      exact ⟨d, counts_concat.mpr (.inl rfl), .inl rfl⟩

theorem OnTree.not_holds {d : Demand} (hd : d.OnTree) (found : ValidationError) :
    ¬ d.Holds (.error found) := by
  cases d <;> first | exact hd.elim | exact id

theorem Counts.mem {demands : List Demand} {d : Demand} (h : Counts demands d) : d ∈ demands := by
  obtain ⟨before, after, rfl, -⟩ := h
  simp

theorem exists_counts_asksError_iff {demands : List Demand} :
    (∃ d, Counts demands d ∧ d.AsksError) ↔ ∃ d ∈ demands, d.AsksError := by
  constructor
  · rintro ⟨d, hc, ha⟩
    exact ⟨d, hc.mem, ha⟩
  · rintro ⟨d, hd, ha⟩
    obtain ⟨d', hc, rfl | hr⟩ := exists_counts hd
    · exact ⟨d', hc, ha⟩
    · exact ⟨d', hc, hr.asksError_iff.mpr ha⟩

end Demand

namespace Expectation

open Demand

/-! ### What is asked for -/

/-- The expectation has the demand. -/
def Asks (e : Expectation) : Demand → Prop
  | .success => e.success = true
  | .error cause => e.error = some cause
  | .errorAt place => e.place = some place
  | .structuralError => e.structural = true
  | .check address name passed => (address, name, passed) ∈ e.checks
  | .checks address names => (address, names) ∈ e.checkNames
  | .unwrapped address => address ∈ e.unwrapped
  | .value v => e.value = some v
  | .condition holds => e.condition = some holds

theorem not_asks_empty (d : Demand) : ¬ Asks {} d := by
  cases d <;> simp [Asks]

/-- A demand more is asked for, with the success if it is on the tree, beside all that it does not
take the place of. -/
theorem asks_demand {e : Expectation} {d x : Demand} :
    (e.demand d).Asks x ↔
      x = d ∨ x = .success ∧ d.OnTree ∨ e.Asks x ∧ ¬ d.Replaces x := by
  cases d <;> cases x <;> simp [demand, Asks, OnTree, Replaces]
  case error.error | errorAt.errorAt | value.value | condition.condition => exact eq_comm
  case check.check | checks.checks | unwrapped.unwrapped => exact or_comm

theorem asks_ofList {demands : List Demand} {x : Demand} :
    (ofList demands).Asks x ↔ Counts demands x ∨ x = .success ∧ ∃ d ∈ demands, d.OnTree := by
  induction demands using List.reverseRecOn with
  | nil => simp [ofList, not_asks_empty, not_counts_nil]
  | append_singleton demands d ih =>
    rw [ofList, List.foldl_append, List.foldl_cons, List.foldl_nil, ← ofList, asks_demand, ih,
      counts_concat]
    by_cases hx : x = .success
    · subst hx
      simp only [not_replaces_success, not_false_eq_true, and_true, true_and, List.mem_append,
        List.mem_singleton, or_and_right, exists_or, exists_eq_left]
      exact Iff.of_eq (by ac_rfl)
    · simp [hx]

/-- What holds of all that is asked for, kind by kind. -/
theorem forall_asks_iff {e : Expectation} {P : Demand → Prop} :
    (∀ d, e.Asks d → P d) ↔
      (e.success = true → P .success) ∧ (∀ cause, e.error = some cause → P (.error cause)) ∧
      (∀ place, e.place = some place → P (.errorAt place)) ∧
      (e.structural = true → P .structuralError) ∧
      (∀ c ∈ e.checks, P (.check c.1 c.2.1 c.2.2)) ∧
      (∀ c ∈ e.checkNames, P (.checks c.1 c.2)) ∧ (∀ a ∈ e.unwrapped, P (.unwrapped a)) ∧
      (∀ v, e.value = some v → P (.value v)) ∧
      ∀ holds, e.condition = some holds → P (.condition holds) := by
  constructor
  · intro h
    exact ⟨h .success, fun c => h (.error c), fun p => h (.errorAt p), h .structuralError,
      fun c => h (.check c.1 c.2.1 c.2.2), fun c => h (.checks c.1 c.2), fun a => h (.unwrapped a),
      fun v => h (.value v), fun holds => h (.condition holds)⟩
  · intro h d hd
    obtain ⟨hsuccess, herror, hplace, hstructural, hchecks, hnames, hunwrapped, hvalue, hcond⟩ := h
    cases d with
    | success => exact hsuccess hd
    | error cause => exact herror cause hd
    | errorAt place => exact hplace place hd
    | structuralError => exact hstructural hd
    | check address name passed => exact hchecks _ hd
    | checks address names => exact hnames _ hd
    | unwrapped address => exact hunwrapped address hd
    | value v => exact hvalue v hd
    | condition holds => exact hcond holds hd

/-! ### Verification -/

theorem require_eq_ok {condition : Bool} {failure : Failure} {u : Unit} :
    require condition failure = .ok u ↔ condition = true := by
  cases condition <;> simp [require]

theorem lookup_eq_ok {t node : Validated} {address : String} :
    lookup t address = .ok node ↔ t.node? address = some node := by
  cases h : t.node? address <;> simp [lookup, h]

/-- Sorting forgets the order of names and nothing else. -/
theorem sortNames_eq_iff {names others : List String} :
    sortNames names = sortNames others ↔ names.Perm others := by
  have perm (names : List String) : (sortNames names).Perm names := List.mergeSort_perm ..
  have sorted (names : List String) : (sortNames names).Pairwise (· ≤ ·) := by
    simpa [sortNames] using @List.pairwise_mergeSort _ (fun a b : String => decide (a ≤ b))
      (by simpa using fun _ _ _ => String.le_trans) (by simpa using String.le_total) names
  constructor
  · intro h
    exact (perm names).symm.trans (h ▸ perm others)
  · intro h
    exact List.Perm.eq_of_pairwise (fun _ _ _ _ => String.le_antisymm) (sorted names)
      (sorted others) ((perm names).trans (h.trans (perm others).symm))

variable {t : Validated} {u : Unit}

theorem verifyCheck_eq_ok {c : String × String × Bool} :
    verifyCheck t c = .ok u ↔ Holds (.check c.1 c.2.1 c.2.2) (.ok t) := by
  simp [verifyCheck, Holds, lookup_eq_ok, require_eq_ok, Option.bind_eq_some_iff]

theorem verifyChecks_eq_ok {c : String × List String} :
    verifyChecks t c = .ok u ↔ Holds (.checks c.1 c.2) (.ok t) := by
  simp [verifyChecks, Holds, lookup_eq_ok, require_eq_ok, sortNames_eq_iff]

theorem verifyUnwrapped_eq_ok {address : String} :
    verifyUnwrapped t address = .ok u ↔ Holds (.unwrapped address) (.ok t) := by
  simp [verifyUnwrapped, Holds, lookup_eq_ok, require_eq_ok, Validated.isChecked]

theorem placeText_eq_iff {found : ValidationError} {place : String} :
    placeText found = place ↔ Holds (.errorAt place) (.error found) := by
  cases hp : found.path? <;> simp [placeText, Holds, hp, eq_comm]

variable {e : Expectation}

/-- The place of an error is not looked at. -/
theorem verifySuccess_eq_ok :
    e.verifySuccess t = .ok u ↔
      ∀ d, e.Asks d → (∀ place, d ≠ .errorAt place) → d.Holds (.ok t) := by
  rw [forall_asks_iff]
  obtain ⟨success, error, place, structural, checks, checkNames, unwrapped, value, condition⟩ := e
  cases error <;> cases value <;> cases condition <;>
    simp [-List.forM_eq_forM, -Bool.forall_bool, verifySuccess, require_eq_ok, forM_eq_ok,
      verifyCheck_eq_ok, verifyChecks_eq_ok, verifyUnwrapped_eq_ok]

theorem verifyError_eq_ok {found : ValidationError} :
    e.verifyError found = .ok u ↔
      e.success = false ∧ (e.error.isSome ∨ e.structural = true) ∧
      (e.structural = true → found.isStructural = true) ∧
      (∀ cause, e.error = some cause → found.cause = cause) ∧
      ∀ place, e.place = some place → Holds (.errorAt place) (.error found) := by
  simp only [← placeText_eq_iff]
  obtain ⟨success, error, place, structural, checks, checkNames, unwrapped, value, condition⟩ := e
  cases error <;> cases place <;> cases structural <;>
    simp [verifyError, require_eq_ok]

/-! ### Lists of demands -/

variable {demands : List Demand}

theorem verify_ok_iff :
    (ofList demands).verify (.ok t) = .ok () ↔
      ∀ d, Counts demands d → (∀ place, d ≠ .errorAt place) → d.Holds (.ok t) := by
  rw [verify, verifySuccess_eq_ok]
  refine forall_congr' fun d => ?_
  rw [asks_ofList]
  constructor
  · exact fun h hc => h (.inl hc)
  · rintro h (hc | ⟨rfl, -⟩) hp
    · exact h hc hp
    · exact holds_success

theorem asks_success_of_onTree {d : Demand} (hd : d ∈ demands) (ht : d.OnTree) :
    (ofList demands).success = true :=
  (asks_ofList (x := .success)).mpr (.inr ⟨rfl, d, hd, ht⟩)

theorem asks_iff_counts (demands : List Demand) {d : Demand} (hd : d ≠ .success) :
    (ofList demands).Asks d ↔ Counts demands d := by
  simp [asks_ofList, hd]

theorem verify_error_iff {found : ValidationError} :
    (ofList demands).verify (.error found) = .ok () ↔
      (∃ d ∈ demands, d.AsksError) ∧ ∀ d, Counts demands d → d.Holds (.error found) := by
  have herror (cause : String) := asks_iff_counts demands (d := .error cause) nofun
  have hplace (place : String) := asks_iff_counts demands (d := .errorAt place) nofun
  have hstructural := asks_iff_counts demands (d := .structuralError) nofun
  rw [verify, verifyError_eq_ok, ← exists_counts_asksError_iff]
  constructor
  · rintro ⟨hno, hasks, hs, he, hp⟩
    constructor
    · rcases hasks with h | h
      · obtain ⟨cause, h⟩ := Option.isSome_iff_exists.mp h
        exact ⟨.error cause, (herror cause).mp h, trivial⟩
      · exact ⟨.structuralError, hstructural.mp h, trivial⟩
    · intro d hd
      have hsuccess (h : (ofList demands).success = true) : d.Holds (.error found) := by
        rw [hno] at h
        cases h
      cases d with
      | success => exact hsuccess (asks_ofList.mpr (.inl hd))
      | error cause => exact he cause ((herror cause).mpr hd)
      | errorAt place => exact hp place ((hplace place).mpr hd)
      | structuralError => exact hs (hstructural.mpr hd)
      | check | checks | unwrapped | value | condition =>
        exact hsuccess (asks_success_of_onTree hd.mem trivial)
  · rintro ⟨⟨d, hd, ha⟩, hall⟩
    refine ⟨?_, ?_, fun h => hall _ (hstructural.mp h), fun c h => hall _ ((herror c).mp h),
      fun p h => hall _ ((hplace p).mp h)⟩
    · rw [Bool.eq_false_iff]
      intro h
      rcases (asks_ofList (x := .success)).mp h with hc | ⟨-, d, hd, ht⟩
      · exact hall _ hc
      · obtain ⟨d', hc, rfl | hr⟩ := exists_counts hd
        · exact ht.not_holds found (hall _ hc)
        · exact (hr.onTree_iff.mpr ht).not_holds found (hall _ hc)
    · cases d with
      | error cause => exact .inl (Option.isSome_iff_exists.mpr ⟨cause, (herror cause).mpr hd⟩)
      | structuralError => exact .inr (hstructural.mpr hd)
      | _ => exact ha.elim

/-- When an outcome is as a list of demands expects. A success is, if each demand that counts holds
of it, that of a place of an error aside. An error is, if it is asked for and each demand that
counts holds of it. So all demands that count hold of an outcome that is as expected, except where
a place is demanded of the error of a success; and no list expects some success and some error. -/
theorem verify_ofList (demands : List Demand) :
    (∀ t, (ofList demands).verify (.ok t) = .ok () ↔
      ∀ d, Counts demands d → (∀ place, d ≠ .errorAt place) → d.Holds (.ok t)) ∧
    (∀ found, (ofList demands).verify (.error found) = .ok () ↔
      (∃ d ∈ demands, d.AsksError) ∧ ∀ d, Counts demands d → d.Holds (.error found)) ∧
    (∀ outcome, (ofList demands).verify outcome = .ok () →
      ((∀ d, Counts demands d → d.Holds outcome) ↔
        ∀ t, outcome = .ok t → ∀ place, .errorAt place ∉ demands)) ∧
    ¬ ∃ t found, (ofList demands).verify (.ok t) = .ok () ∧
      (ofList demands).verify (.error found) = .ok () := by
  refine ⟨fun t => verify_ok_iff, fun found => verify_error_iff, fun outcome h => ?_, ?_⟩
  · cases outcome with
    | error found => exact iff_of_true (verify_error_iff.mp h).2 nofun
    | ok t =>
      constructor
      · intro hall _ _ place hm
        obtain ⟨d, hc, hd⟩ := exists_counts hm
        have hholds := hall d hc
        cases d with
        | errorAt => exact hholds
        | _ => rcases hd with hd | hd <;> cases hd
      · intro hno d hc
        refine verify_ok_iff.mp h d hc fun place hd => ?_
        subst hd
        exact hno t rfl place hc.mem
  · rintro ⟨t, found, hok, herror⟩
    obtain ⟨hasks, -⟩ := verify_error_iff.mp herror
    obtain ⟨d, hc, ha⟩ := exists_counts_asksError_iff.mpr hasks
    cases d with
    | error => exact verify_ok_iff.mp hok _ hc nofun
    | structuralError => exact verify_ok_iff.mp hok _ hc nofun
    | _ => exact ha.elim

/-- An error at the place demanded, with the cause that is demanded last. -/
theorem exists_verify_ofList :
    let demands : List Demand := [.error "positive", .errorAt "Foo.bar", .error "bar_range"]
    ∃ (schema : Schema) (found : ValidationError),
      Schema.ofDeclarations Samples.foo = .ok schema ∧
      schema.validate (Settings.mk 128 false true) (.class "Foo") (Samples.fooValue 12) =
        .error found ∧
      (ofList demands).verify (.error found) = .ok () ∧
      (∀ d, Counts demands d → d.Holds (.error found)) ∧
      ¬ (Demand.error "positive").Holds (.error found) ∧
      ∀ t, (ofList demands).verify (.ok t) ≠ .ok () := by
  intro demands
  have hs : (Schema.ofDeclarations Samples.foo).toOption.any (fun schema =>
      failsWith (fun found => ((ofList demands).verify (.error found)).isOk &&
          found.cause == "bar_range")
        (schema.validate (Settings.mk 128 false true) (.class "Foo") (Samples.fooValue 12))) =
      true := by
    decide +kernel
  obtain ⟨schema, hs, hfails⟩ := toOption_any_iff.mp hs
  obtain ⟨found, he, hfails⟩ := failsWith_iff.mp hfails
  obtain ⟨hok, hcause⟩ := Bool.and_eq_true_iff.mp hfails
  obtain ⟨⟨⟩, hv⟩ := isOk_iff.mp hok
  obtain ⟨-, -, hall, hboth⟩ := verify_ofList demands
  refine ⟨schema, found, hs, he, hv, (hall _ hv).mpr nofun, ?_,
    fun t ht => hboth ⟨t, found, ht, hv⟩⟩
  rw [Demand.Holds, beq_iff_eq.mp hcause]
  decide

/-- The place of an error is demanded, and a success passes. -/
theorem exists_place_overlooked :
    let demands : List Demand := [.errorAt "Foo.bar"]
    ∃ (schema : Schema) (tree : Validated), Schema.ofDeclarations Samples.foo = .ok schema ∧
      schema.validate (Settings.mk 128 false true) (.class "Foo") (Samples.fooValue 5) =
        .ok tree ∧
      (ofList demands).verify (.ok tree) = .ok () ∧ Counts demands (.errorAt "Foo.bar") ∧
      ¬ (Demand.errorAt "Foo.bar").Holds (.ok tree) := by
  intro demands
  have hs : (Schema.ofDeclarations Samples.foo).toOption.any (fun schema =>
      (schema.validate (Settings.mk 128 false true) (.class "Foo") (Samples.fooValue 5)).isOk) =
      true := by
    decide +kernel
  obtain ⟨schema, hs, hok⟩ := toOption_any_iff.mp hs
  obtain ⟨tree, ht⟩ := isOk_iff.mp hok
  exact ⟨schema, tree, hs, ht, rfl, ⟨[], [], rfl, nofun⟩, id⟩

end Expectation

end RecordCheck

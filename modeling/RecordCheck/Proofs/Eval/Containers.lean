import RecordCheck.Proofs.Eval.Positions
import RecordCheck.Proofs.Eval.Reads
import RecordCheck.Proofs.Value.Fields

/-! Maps and objects as functions of names: membership, access by name, the keys, the values and the
length tell of one and the same function. -/

namespace RecordCheck.Eval

open Results

/-! ### Maps and objects -/

/-- A map or object with its entries, and the error of an access by a name that it lacks. -/
inductive Keyed : Value → List (String × Value) → (String → EvalError) → Prop where
  | map {entries} : Keyed (.map entries) entries .missingKey
  | object {className fields} : Keyed (.object className fields) fields (.unknownField · className)

namespace Keyed

variable {m : Value} {entries : List (String × Value)} {absent : String → EvalError}

theorem names_nodup (h : Keyed m entries absent) (hm : m.WellFormed) :
    (Fields.names entries).Nodup := by
  cases h with
  | map => exact hm.1.nodup
  | object => exact hm.1

theorem fieldOf_eq (h : Keyed m entries absent) (name : String) :
    fieldOf m name = (Fields.find? name entries).elim (.error (absent name)) .ok := by
  cases h with
  | map => exact fieldOf_map name entries
  | object => exact fieldOf_object _ name entries

theorem indexOf_eq (h : Keyed m entries absent) (name : String) :
    indexOf m (.string name) = fieldOf m name := by
  cases h <;> rfl

theorem membership_eq (h : Keyed m entries absent) (name : String) :
    membership (.string name) m = .ok (.bool (Fields.contains name entries)) := by
  cases h <;> rfl

theorem keys_eq (h : Keyed m entries absent) :
    keys m = .ok (.list ((Fields.names entries).map .string)) := by
  cases h <;> rfl

theorem values_eq (h : Keyed m entries absent) :
    values m = .ok (.list (Fields.values entries)) := by
  cases h <;> rfl

theorem length_eq (h : Keyed m entries absent) :
    length m = .ok (.int (Int64.ofNat entries.length)) := by
  cases h <;> rfl

end Keyed

theorem length_list (items : List Value) :
    length (.list items) = .ok (.int (Int64.ofNat items.length)) := rfl

theorem membership_names (name : String) (entries : List (String × Value)) :
    membership (.string name) (.list ((Fields.names entries).map .string)) =
      .ok (.bool (Fields.contains name entries)) := by
  have hequal (n : String) : equal (.string name) (.string n) = (name == n) := rfl
  have hany : ((Fields.names entries).map Value.string).any (equal (.string name)) =
      Fields.contains name entries := by
    rw [Bool.eq_iff_iff, Fields.contains, Fields.find?_isSome_iff, List.any_map, List.any_eq_true]
    simp [hequal]
  change Except.ok (Value.bool (((Fields.names entries).map Value.string).any
    (equal (.string name)))) = _
  rw [hany]

/-- The value at a position of the values is that of the key at this position of the keys. -/
theorem indexOf_keyAt {m : Value} {entries : List (String × Value)} {absent : String → EvalError}
    (h : Keyed m entries absent) (hm : m.WellFormed) (i : Int64) :
    (itemAt ((Fields.names entries).map Value.string) i >>= indexOf m) =
      itemAt (Fields.values entries) i := by
  rw [Fields.names, Fields.values, List.map_map, itemAt_map, itemAt_map]
  cases hi : itemAt entries i with
  | error e => rfl
  | ok entry =>
    change indexOf m (.string entry.1) = .ok entry.2
    rw [h.indexOf_eq, h.fieldOf_eq, Fields.find?_of_mem (h.names_nodup hm) (mem_of_itemAt hi)]
    rfl

/-! ### Expressions -/

section

variable {ctx : Context} {m : Value} {entries : List (String × Value)}
  {absent : String → EvalError} {keysName valuesName lengthName : String} {x x' : Expr}

/-- What the views of a map or object with `n` entries have in common. The container is the value of
`x` and of `x'`, the functions go by the given names, and `absent` is the error for a name that it
lacks. -/
structure Views (ctx : Context) (x x' : Expr) (keysName valuesName lengthName : String) (n : Nat)
    (absent : String → EvalError) : Prop where
  mem_iff : ∀ name y s s', eval ctx y = .ok (.string name) →
    (eval ctx (.binary .isIn y x s) = .ok (.bool true) ↔
      eval ctx (.binary .isIn y (.call keysName [x'] s') s) = .ok (.bool true))
  length_eq : ∀ s s', eval ctx (.call lengthName [x] s) = .ok (.int (Int64.ofNat n)) ∧
    eval ctx (.call lengthName [.call keysName [x'] s'] s) = .ok (.int (Int64.ofNat n)) ∧
    eval ctx (.call lengthName [.call valuesName [x'] s'] s) = .ok (.int (Int64.ofNat n))
  keys_distinct : ∃ names : List String, names.Nodup ∧ names.length = n ∧
    ∀ s, eval ctx (.call keysName [x] s) = .ok (.list (names.map .string))
  /-- The key at a position leads to the value there, or the position is out of range for both. -/
  value_eq : ∀ i y s s' s'', eval ctx y = .ok (.int i) →
    eval ctx (.index x (.index (.call keysName [x'] s) y s') s'') =
      eval ctx (.index (.call valuesName [x'] s) y s')
  value_iff : ∀ i y s s', eval ctx y = .ok (.int i) →
    ((∃ v, eval ctx (.index (.call valuesName [x] s) y s') = .ok v) ↔
      -(n : Int) ≤ i.toInt ∧ i.toInt < n)
  index_iff : ∀ name y s, eval ctx y = .ok (.string name) →
    ((∃ v, eval ctx (.index x y s) = .ok v) ↔
      eval ctx (.binary .isIn y x' s) = .ok (.bool true))
  index_eq_field : ∀ name y s s', eval ctx y = .ok (.string name) →
    eval ctx (.index x y s) = eval ctx (.field x' name s')
  index_absent : ∀ name y s, eval ctx y = .ok (.string name) →
    eval ctx (.binary .isIn y x' s) ≠ .ok (.bool true) →
    eval ctx (.index x y s) = .error (absent name)

section

variable (hk : Keyed m entries absent)

include hk

theorem eval_isIn {y : Expr} {name : String} (hx : eval ctx x = .ok m)
    (hy : eval ctx y = .ok (.string name)) (s : Span) :
    eval ctx (.binary .isIn y x s) = .ok (.bool (Fields.contains name entries)) := by
  rw [eval_binary hy hx]
  exact hk.membership_eq name

theorem eval_indexName {y : Expr} {name : String} (hx : eval ctx x = .ok m)
    (hy : eval ctx y = .ok (.string name)) (s : Span) :
    eval ctx (.index x y s) = (Fields.find? name entries).elim (.error (absent name)) .ok := by
  rw [eval_index hx hy, hk.indexOf_eq, hk.fieldOf_eq]

theorem eval_keys (hkeys : Intrinsic.ofName? keysName = some .keys) (hx : eval ctx x = .ok m)
    (s : Span) :
    eval ctx (.call keysName [x] s) = .ok (.list ((Fields.names entries).map .string)) := by
  rw [eval_call hkeys hx]
  exact hk.keys_eq

theorem eval_values (hvalues : Intrinsic.ofName? valuesName = some .values)
    (hx : eval ctx x = .ok m) (s : Span) :
    eval ctx (.call valuesName [x] s) = .ok (.list (Fields.values entries)) := by
  rw [eval_call hvalues hx]
  exact hk.values_eq

end

theorem eval_indexAt {y : Expr} {items : List Value} {i : Int64} (hx : eval ctx x = .ok (.list items))
    (hy : eval ctx y = .ok (.int i)) (s : Span) : eval ctx (.index x y s) = itemAt items i :=
  eval_index hx hy s

/-- Membership, keys, values, length and accesses tell of one function of names: no name comes twice,
an access by a name succeeds exactly if the name is in the container, and with the value that stands
at the position of the name among the keys. -/
theorem views_agree (hm : m.WellFormed) (hk : Keyed m entries absent)
    (hkeys : Intrinsic.ofName? keysName = some .keys)
    (hvalues : Intrinsic.ofName? valuesName = some .values)
    (hlength : Intrinsic.ofName? lengthName = some .length)
    (hx : eval ctx x = .ok m) (hx' : eval ctx x' = .ok m) :
    Views ctx x x' keysName valuesName lengthName entries.length absent where
  mem_iff name y s s' hy := by
    rw [eval_isIn hk hx hy, eval_binary hy (eval_keys hk hkeys hx' s')]
    exact Iff.of_eq (congrArg (· = _) (membership_names name entries).symm)
  length_eq s s' := by
    rw [eval_call hlength hx, eval_call hlength (eval_keys hk hkeys hx' s'),
      eval_call hlength (eval_values hk hvalues hx' s')]
    refine ⟨hk.length_eq, (length_list _).trans ?_, (length_list _).trans ?_⟩
    · rw [Fields.names, List.length_map, List.length_map]
    · rw [Fields.values, List.length_map]
  keys_distinct :=
    ⟨Fields.names entries, hk.names_nodup hm, List.length_map .., eval_keys hk hkeys hx⟩
  value_eq i y s s' s'' hy := by
    rw [eval_indexAt (eval_values hk hvalues hx' s) hy, ← indexOf_keyAt hk hm i, eval, hx, ok_bind,
      eval_indexAt (eval_keys hk hkeys hx' s) hy]
  value_iff i y s s' hy := by
    rw [eval_indexAt (eval_values hk hvalues hx s) hy, exists_itemAt_iff, Fields.values,
      List.length_map]
  index_iff name y s hy := by
    rw [eval_indexName hk hx hy, eval_isIn hk hx' hy, Fields.contains]
    cases Fields.find? name entries <;> simp
  index_eq_field name y s s' hy := by
    rw [eval_indexName hk hx hy, eval_field hx', hk.fieldOf_eq]
  index_absent name y s hy h := by
    rw [eval_isIn hk hx' hy, Fields.contains] at h
    rw [eval_indexName hk hx hy]
    cases hf : Fields.find? name entries with
    | none => rfl
    | some v => simp [hf] at h

end

/-- An object with a field that is null: it has the field, and its class is named for one that it
lacks. -/
theorem views_agree_of_object :
    let m := Value.object "Item" [("sku", .string "a-1"), ("note", .null)]
    let ctx := Context.ofValue m
    let x : Expr := .root .this default
    let y (name : String) : Expr := .literal (.string name) default
    m.WellFormed ∧ Intrinsic.ofName? "Keys" = some .keys ∧
      Intrinsic.ofName? "values" = some .values ∧ Intrinsic.ofName? "len" = some .length ∧
      eval ctx x = .ok m ∧
      Views ctx x x "Keys" "values" "len" 2 (.unknownField · "Item") ∧
      eval ctx (.index x (y "note") default) = .ok .null ∧
      eval ctx (.index x (y "size") default) = .error (.unknownField "size" "Item") := by
  intro m ctx x y
  have hm : m.WellFormed := ⟨by decide, trivial, trivial, trivial⟩
  have hkeys : Intrinsic.ofName? "Keys" = some .keys := by decide +kernel
  have hvalues : Intrinsic.ofName? "values" = some .values := by decide +kernel
  have hlength : Intrinsic.ofName? "len" = some .length := by decide +kernel
  have hx : eval ctx x = .ok m := rfl
  have hout : eval ctx (.binary .isIn (y "size") x default) = .ok (.bool false) := rfl
  have hviews := views_agree hm .object hkeys hvalues hlength hx hx
  refine ⟨hm, hkeys, hvalues, hlength, hx, hviews, ?_, ?_⟩
  · rw [hviews.index_eq_field "note" (y "note") default default rfl]
    rfl
  · exact hviews.index_absent "size" (y "size") default rfl (by simp [hout])

end RecordCheck.Eval

import MesCore.DeviceCrypto

namespace MesCore
set_option autoImplicit true

/-- A Python value as `_coerce_json_safe` tells them apart. An `object` is anything else:
an exception, a socket, bytes. -/
inductive PyValue
  | none
  | bool (b : Bool)
  | int (n : Int)
  | float (bits : UInt64)
  | str (s : CodePoints)
  | dict (items : List (PyValue × PyValue))
  | list (elements : List PyValue)
  | tuple (elements : List PyValue)
  | set (elements : List PyValue)
  | object (id : Nat)

namespace PyValue

section
variable (str : PyValue → CodePoints)

mutual
/-- `_coerce_json_safe`, with `str` the built-in. -/
def coerceJsonSafe : PyValue → PyValue
  | .dict items => .dict (coerceItems items)
  | .list elements => .list (coerceElements elements)
  | .none => .none
  | .bool b => .bool b
  | .int n => .int n
  | .float bits => .float bits
  | .str s => .str s
  | .tuple elements => .str (str (.tuple elements))
  | .set elements => .str (str (.set elements))
  | .object id => .str (str (.object id))

/-- `{k: _coerce_json_safe(v) for k, v in value.items()}` -/
def coerceItems : List (PyValue × PyValue) → List (PyValue × PyValue)
  | [] => []
  | (k, v) :: items => (k, coerceJsonSafe v) :: coerceItems items

/-- `[_coerce_json_safe(v) for v in value]` -/
def coerceElements : List PyValue → List PyValue
  | [] => []
  | v :: elements => coerceJsonSafe v :: coerceElements elements
end

theorem mem_coerceItems (k w : PyValue) (items : List (PyValue × PyValue)) :
    (k, w) ∈ coerceItems str items ↔ ∃ v, (k, v) ∈ items ∧ coerceJsonSafe str v = w := by
  induction items with
  | nil => simp [coerceItems]
  | cons item items ih =>
    obtain ⟨k', v'⟩ := item
    simp only [coerceItems, List.mem_cons, Prod.mk.injEq, ih]
    constructor
    · rintro (⟨rfl, rfl⟩ | ⟨v, hv, hw⟩)
      · exact ⟨v', .inl ⟨rfl, rfl⟩, rfl⟩
      · exact ⟨v, .inr hv, hw⟩
    · rintro ⟨v, ⟨rfl, rfl⟩ | hv, hw⟩
      · exact .inl ⟨rfl, hw.symm⟩
      · exact .inr ⟨v, hv, hw⟩

theorem mem_coerceElements (w : PyValue) (elements : List PyValue) :
    w ∈ coerceElements str elements ↔ ∃ v ∈ elements, coerceJsonSafe str v = w := by
  induction elements with
  | nil => simp [coerceElements]
  | cons v elements ih => simp [coerceElements, ih, eq_comm]

mutual
theorem coerceJsonSafe_coerceJsonSafe :
    ∀ v, coerceJsonSafe str (coerceJsonSafe str v) = coerceJsonSafe str v
  | .dict items => by
    simp only [coerceJsonSafe, coerceItems_coerceItems items]
  | .list elements => by
    simp only [coerceJsonSafe, coerceElements_coerceElements elements]
  | .none => rfl
  | .bool _ => rfl
  | .int _ => rfl
  | .float _ => rfl
  | .str _ => rfl
  | .tuple _ => rfl
  | .set _ => rfl
  | .object _ => rfl

theorem coerceItems_coerceItems :
    ∀ items, coerceItems str (coerceItems str items) = coerceItems str items
  | [] => rfl
  | (k, v) :: items => by
    simp only [coerceItems, coerceJsonSafe_coerceJsonSafe v, coerceItems_coerceItems items]

theorem coerceElements_coerceElements :
    ∀ elements, coerceElements str (coerceElements str elements) = coerceElements str elements
  | [] => rfl
  | v :: elements => by
    simp only [coerceElements, coerceJsonSafe_coerceJsonSafe v,
      coerceElements_coerceElements elements]
end

end

/-- Going down `n` containers from `v`, through the values of a dict and the elements of a list,
leads to `w`. -/
inductive Reach : Nat → PyValue → PyValue → Prop
  | here : Reach 0 v v
  | item : (k, v) ∈ items → Reach n v w → Reach (n + 1) (.dict items) w
  | element : v ∈ elements → Reach n v w → Reach (n + 1) (.list elements) w

theorem Reach.coerce (h : Reach n v w) (str : PyValue → CodePoints) :
    Reach n (coerceJsonSafe str v) (coerceJsonSafe str w) := by
  induction h with
  | here => exact .here
  | item hv _ ih =>
    exact .item ((mem_coerceItems str _ _ _).2 ⟨_, hv, rfl⟩) ih
  | element hv _ ih =>
    exact .element ((mem_coerceElements str _ _).2 ⟨_, hv, rfl⟩) ih

/-- Nothing is reached after the coercion that was not there, at the same depth, before. -/
theorem reach_coerceJsonSafe_iff (str : PyValue → CodePoints) :
    Reach n (coerceJsonSafe str v) u ↔ ∃ w, Reach n v w ∧ coerceJsonSafe str w = u := by
  constructor
  · intro h
    generalize hc : coerceJsonSafe str v = c at h
    induction h generalizing v with
    | here => exact ⟨v, .here, hc⟩
    | item hx _ ih =>
      cases v with
      | dict items =>
        simp only [coerceJsonSafe, dict.injEq] at hc
        subst hc
        obtain ⟨v', hv', rfl⟩ := (mem_coerceItems str _ _ _).1 hx
        obtain ⟨w, hw, rfl⟩ := ih rfl
        exact ⟨w, .item hv' hw, rfl⟩
      | _ => simp [coerceJsonSafe] at hc
    | element hx _ ih =>
      cases v with
      | list elements =>
        simp only [coerceJsonSafe, list.injEq] at hc
        subst hc
        obtain ⟨v', hv', rfl⟩ := (mem_coerceElements str _ _).1 hx
        obtain ⟨w, hw, rfl⟩ := ih rfl
        exact ⟨w, .element hv' hw, rfl⟩
      | _ => simp [coerceJsonSafe] at hc
  · rintro ⟨w, hw, rfl⟩
    exact hw.coerce str

/-- A dict, if it is one, has strings for keys. -/
def StringKeys : PyValue → Prop
  | .dict items => ∀ k v, (k, v) ∈ items → ∃ s, k = .str s
  | _ => True

/-- A JSON value, as far as the value itself goes. -/
def JsonNode : PyValue → Prop
  | .tuple _ | .set _ | .object _ => False
  | v => StringKeys v

theorem jsonNode_coerceJsonSafe (str : PyValue → CodePoints) (v : PyValue) :
    JsonNode (coerceJsonSafe str v) ↔ StringKeys v := by
  cases v with
  | dict items =>
    simp only [coerceJsonSafe, JsonNode, StringKeys, mem_coerceItems]
    constructor
    · intro h k v hv
      exact h k _ ⟨v, hv, rfl⟩
    · rintro h k _ ⟨v, hv, rfl⟩
      exact h k v hv
  | _ => exact Iff.rfl

def keyText : PyValue → Option CodePoints
  | .str s => some s
  | _ => Option.none

def texts : PyValue → List CodePoints
  | .str s => [s]
  | .dict items => items.filterMap fun item => keyText item.1
  | _ => []

def coercedTexts (str : PyValue → CodePoints) : PyValue → List CodePoints
  | .tuple elements => [str (.tuple elements)]
  | .set elements => [str (.set elements)]
  | .object id => [str (.object id)]
  | v => texts v

theorem texts_coerceJsonSafe (str : PyValue → CodePoints) (v : PyValue) :
    texts (coerceJsonSafe str v) = coercedTexts str v := by
  cases v with
  | dict items =>
    simp only [coerceJsonSafe, texts, coercedTexts]
    induction items with
    | nil => rfl
    | cons item items ih =>
      obtain ⟨k, v⟩ := item
      simp only [coerceItems, List.filterMap_cons, ih]
  | _ => rfl

end PyValue

/-- UTF-8 has every code point but the surrogates. -/
def Encodable (s : CodePoints) : Prop := ∀ c ∈ s, c < 0xD800 ∨ 0xDFFF < c

/-- `TestRecord`, its other fields as one. -/
structure TestRecord (φ : Type) where
  fields : φ
  metrics : List (PyValue × PyValue)
  context : List (PyValue × PyValue)

namespace TestRecord
open PyValue

def sanitize (str : PyValue → CodePoints) (r : TestRecord φ) : TestRecord φ :=
  { r with
    context := coerceItems str r.context
    metrics := coerceItems str r.metrics }

/-- The values in `context` and `metrics`, these two included, with their depth. -/
def Reaches (r : TestRecord φ) (n : Nat) (w : PyValue) : Prop :=
  Reach n (.dict r.context) w ∨ Reach n (.dict r.metrics) w

def IsJson (r : TestRecord φ) : Prop := ∀ n w, r.Reaches n w → JsonNode w

theorem reaches_sanitize (str : PyValue → CodePoints) (r : TestRecord φ) :
    (r.sanitize str).Reaches n u ↔ ∃ w, r.Reaches n w ∧ coerceJsonSafe str w = u := by
  have hc := @reach_coerceJsonSafe_iff n (.dict r.context) u str
  have hm := @reach_coerceJsonSafe_iff n (.dict r.metrics) u str
  simp only [coerceJsonSafe] at hc hm
  simp only [Reaches, sanitize, hc, hm, or_and_right, exists_or]

theorem isJson_sanitize (str : PyValue → CodePoints) (r : TestRecord φ) :
    (r.sanitize str).IsJson ↔ ∀ n w, r.Reaches n w → StringKeys w := by
  simp only [IsJson, reaches_sanitize]
  constructor
  · intro h n w hw
    exact (jsonNode_coerceJsonSafe str w).1 (h n _ ⟨w, hw, rfl⟩)
  · rintro h n _ ⟨w, hw, rfl⟩
    exact (jsonNode_coerceJsonSafe str w).2 (h n w hw)

theorem sanitize_sanitize (str : PyValue → CodePoints) (r : TestRecord φ) :
    (r.sanitize str).sanitize str = r.sanitize str := by
  simp only [sanitize, coerceItems_coerceItems]

end TestRecord

/-- When pydantic's `model_dump_json` returns: JSON values it writes down to the depth where it
takes a value for a circular reference, and where every text has an encoding. -/
structure Pydantic (φ : Type) where
  dumps : TestRecord φ → Prop
  fieldsDump : φ → Prop
  depthGuard : Nat
  dumps_json : ∀ r, r.IsJson → (dumps r ↔ fieldsDump r.fields ∧
    ∀ n w, r.Reaches n w → n ≤ depthGuard ∧ ∀ s ∈ w.texts, Encodable s)

namespace TestRecord
open PyValue

/-- After `sanitize` the record is JSON, it serialises, and a second call changes nothing. -/
def Dumpable (pydantic : Pydantic φ) (str : PyValue → CodePoints) (r : TestRecord φ) : Prop :=
  (r.sanitize str).IsJson ∧ pydantic.dumps (r.sanitize str) ∧
    (r.sanitize str).sanitize str = r.sanitize str

/-- The keys are left as they are, and so is a text without an encoding. -/
theorem dumpable_iff (pydantic : Pydantic φ) (str : PyValue → CodePoints) (r : TestRecord φ) :
    r.Dumpable pydantic str ↔
      (∀ n w, r.Reaches n w → StringKeys w ∧ n ≤ pydantic.depthGuard ∧
        ∀ s ∈ w.coercedTexts str, Encodable s) ∧
      pydantic.fieldsDump r.fields := by
  have hdumps (hj : (r.sanitize str).IsJson) : pydantic.dumps (r.sanitize str) ↔
      pydantic.fieldsDump r.fields ∧ ∀ n w, r.Reaches n w →
        n ≤ pydantic.depthGuard ∧ ∀ s ∈ w.coercedTexts str, Encodable s := by
    rw [pydantic.dumps_json _ hj]
    refine and_congr Iff.rfl ?_
    simp only [reaches_sanitize]
    constructor
    · intro h n w hw
      exact texts_coerceJsonSafe str w ▸ h n _ ⟨w, hw, rfl⟩
    · rintro h n _ ⟨w, hw, rfl⟩
      exact texts_coerceJsonSafe str w ▸ h n w hw
  constructor
  · rintro ⟨hj, hd, -⟩
    obtain ⟨hfields, htexts⟩ := (hdumps hj).1 hd
    exact ⟨fun n w hw => ⟨(isJson_sanitize str r).1 hj n w hw, htexts n w hw⟩, hfields⟩
  · rintro ⟨hall, hfields⟩
    have hj : (r.sanitize str).IsJson :=
      (isJson_sanitize str r).2 fun n w hw => (hall n w hw).1
    exact ⟨hj, (hdumps hj).2 ⟨hfields, fun n w hw => (hall n w hw).2⟩, sanitize_sanitize str r⟩

end TestRecord

/-- A serialiser with the depth of pydantic's, which raises on all else. -/
def strictPydantic : Pydantic Unit where
  dumps r := r.IsJson ∧ ∀ n w, r.Reaches n w → n ≤ 255 ∧ ∀ s ∈ w.texts, Encodable s
  fieldsDump _ := True
  depthGuard := 255
  dumps_json _ hj := by simp only [hj, true_and]

namespace TestRecord
open PyValue

/-- `context["seen"] = {frozenset({1}): True}` -/
def frozenKey : TestRecord Unit :=
  ⟨(), [], [(.str (DeviceCrypto.fieldName "seen"), .dict [(.set [.int 1], .bool true)])]⟩

theorem frozenKey_not_dumpable : ¬ frozenKey.Dumpable strictPydantic fun _ => [] := by
  intro h
  have hreach : frozenKey.Reaches 1 (.dict [(.set [.int 1], .bool true)]) :=
    .inl (.item (List.mem_singleton.2 rfl) .here)
  obtain ⟨s, hs⟩ := (isJson_sanitize _ _).1 h.1 _ _ hreach _ _ (List.mem_singleton.2 rfl)
  cases hs

end TestRecord
end MesCore

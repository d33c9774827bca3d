import MesCore.PairSearch
import MesCore.TopologyValidators

namespace MesCore
set_option autoImplicit true

def nibbles (b : UInt8) : Fin 16 × Fin 16 :=
  (⟨b.toNat / 16, by have := b.toNat_lt; omega⟩, ⟨b.toNat % 16, Nat.mod_lt _ (by decide)⟩)

def upperDigit (n : Fin 16) : Char := (Nat.digitChar n).toUpper

theorem upperDigit_injective : Function.Injective upperDigit := by
  rw [Function.Injective]
  decide

theorem hexByte_eq (b : UInt8) :
    hexByte b = [upperDigit (nibbles b).1, upperDigit (nibbles b).2] := by
  rw [hexByte, hexPadded, hexNumber]
  by_cases hlt : b.toNat < 16
  · have hdiv : b.toNat / 16 = 0 := Nat.div_eq_of_lt hlt
    have hmod : b.toNat % 16 = b.toNat := Nat.mod_eq_of_lt hlt
    rw [Nat.toDigits_of_lt_base hlt]
    simp only [nibbles, upperDigit, hdiv, hmod]
    rfl
  · have hdiv : b.toNat / 16 < 16 := (nibbles b).1.2
    rw [Nat.toDigits_of_base_le (by decide) (Nat.le_of_not_lt hlt), Nat.toDigits_of_lt_base hdiv]
    rfl

theorem length_hexByte (b : UInt8) : (hexByte b).length = 2 := by
  rw [hexByte_eq]
  rfl

theorem hexText_eq (bs : Bytes) : hexText bs = (unpair (bs.map nibbles)).map upperDigit := by
  induction bs with
  | nil => rfl
  | cons b bs ih =>
    rw [List.map_cons, unpair_cons, List.map_cons, List.map_cons, ← ih, hexText, List.flatMap_cons,
      hexByte_eq]
    rfl

theorem nibbles_injective : Function.Injective nibbles := by
  intro a b h
  have hdiv := congrArg Fin.val (congrArg Prod.fst h)
  have hmod := congrArg Fin.val (congrArg Prod.snd h)
  simp only [nibbles] at hdiv hmod
  apply UInt8.toNat_inj.1
  omega

namespace UartTopologyValidator

/-- The loop of `HostPeripheralSerialAdapter.expect` over what waits in the port at each turn. -/
def expectTurns (payload buf : Bytes) : List Bytes → Bool
  | [] => false
  | waiting :: turns =>
    if waiting = [] then expectTurns payload buf turns
    else if payload <:+: buf ++ waiting then true
    else expectTurns payload (buf ++ waiting) turns

/-- Some bytes read from the low digit of the first one on. -/
def nibbleShift : Bytes → Bytes
  | a :: b :: bs => UInt8.ofNat (a.toNat % 16 * 16 + b.toNat / 16) :: nibbleShift (b :: bs)
  | _ => []

section
variable {payload buf received : Bytes}

theorem nibbles_shift (a b : UInt8) :
    nibbles (UInt8.ofNat (a.toNat % 16 * 16 + b.toNat / 16)) = ((nibbles a).2, (nibbles b).1) := by
  have hb := b.toNat_lt
  have hval : (UInt8.ofNat (a.toNat % 16 * 16 + b.toNat / 16)).toNat =
      a.toNat % 16 * 16 + b.toNat / 16 := by
    rw [UInt8.toNat_ofNat']
    omega
  simp only [nibbles, hval, Prod.mk.injEq, Fin.mk.injEq]
  omega

theorem straddle_nibbles (bs : Bytes) :
    straddle (bs.map nibbles) = (nibbleShift bs).map nibbles := by
  induction bs with
  | nil => rfl
  | cons a bs ih =>
    cases bs with
    | nil => rfl
    | cons b bs =>
      rw [List.map_cons, List.map_cons, straddle, ← List.map_cons, ih, nibbleShift, List.map_cons,
        nibbles_shift]

/-- The text of the payload is found in step with the bytes, or a digit later. -/
theorem captured_iff :
    captured payload received = true ↔
      payload <:+: received ∨ payload <:+: nibbleShift received := by
  rw [captured, decide_eq_true_iff, upperText_hex fun c => hexDigit_of_mem_hexText, hexText_eq,
    hexText_eq, map_infix_map_iff upperDigit_injective, unpair_infix_iff, straddle_nibbles,
    map_infix_map_iff nibbles_injective, map_infix_map_iff nibbles_injective]

/-- However the bytes arrive, the payload is found in them once there are any. -/
theorem expectTurns_iff {turns : List Bytes} :
    expectTurns payload buf turns = true ↔
      turns.flatten ≠ [] ∧ payload <:+: buf ++ turns.flatten := by
  induction turns generalizing buf with
  | nil => simp [expectTurns]
  | cons waiting turns ih =>
    rw [expectTurns, List.flatten_cons]
    by_cases hnone : waiting = []
    · rw [if_pos hnone, ih, hnone, List.nil_append]
    · have hsome : waiting ++ turns.flatten ≠ [] := List.append_ne_nil_of_left_ne_nil hnone _
      rw [if_neg hnone, and_iff_right hsome, ← List.append_assoc]
      by_cases hfound : payload <:+: buf ++ waiting
      · rw [if_pos hfound]
        exact iff_of_true rfl (hfound.trans (List.prefix_append _ _).isInfix)
      · rw [if_neg hfound, ih]
        apply and_iff_right_of_imp
        intro hin hrest
        rw [hrest, List.append_nil] at hin
        exact hfound hin

/-- The check on the target means that the payload occurs, and with it the check on the host,
exactly if the payload is not merely spelled by the digits from an odd one on. -/
theorem captured_means_occurrence_iff (payload received : Bytes) :
    ((captured payload received = true ↔ payload <:+: received) ∧
      ∀ turns : List Bytes, turns.flatten = received →
        (expectTurns payload [] turns = true ↔ payload <:+: received)) ↔
    (payload ≠ [] ∨ received ≠ []) ∧
      (payload <:+: nibbleShift received → payload <:+: received) := by
  rw [captured_iff, or_iff_left_iff_imp]
  have hhost : (∀ turns : List Bytes, turns.flatten = received →
      (expectTurns payload [] turns = true ↔ payload <:+: received)) ↔
      (payload ≠ [] ∨ received ≠ []) := by
    constructor
    · intro h
      by_contra hempty
      rw [not_or, not_not, not_not] at hempty
      obtain ⟨rfl, rfl⟩ := hempty
      exact Bool.false_ne_true ((h [] rfl).2 List.infix_rfl)
    · rintro hne turns rfl
      rw [expectTurns_iff, List.nil_append]
      apply and_iff_right_of_imp
      intro hin hnil
      rw [hnil, List.infix_nil] at hin
      exact hne.elim (fun h => h hin) fun h => h hnil
  rw [hhost, and_comm]

/-- A byte received as `AB CD` passes for `BC`. -/
theorem captured_between_bytes :
    captured [0xBC] [0xAB, 0xCD] = true ∧ ¬ ([0xBC] : Bytes) <:+: [0xAB, 0xCD] ∧
      expectTurns [0xBC] [] [[0xAB, 0xCD]] = false := by
  decide

end

end UartTopologyValidator

end MesCore

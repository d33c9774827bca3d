import MesCore.Text
import MesCore.Occurrence
import Mathlib.Data.List.TakeWhile

namespace MesCore
set_option autoImplicit true

/-- The words of `PANIC_PATTERN_B`. The last kind has the look-ahead
`(?! -1 whilst initialising)`. -/
inductive PanicWord : Bytes → Option Bytes → Prop
  | signature : s ∈ panicSignatures → PanicWord (ascii s) none
  | mmcError : ds ≠ [] → (∀ b ∈ ds, isDigitByte b = true) →
      PanicWord (ascii "mmc" ++ (ds ++ ascii ": error")) (some (ascii " -1 whilst initialising"))

theorem panicSignatures_nonempty : ∀ s ∈ panicSignatures, ascii s ≠ [] := by decide +kernel

def panicLexicon : Lexicon UInt8 where
  word := PanicWord
  nonempty h := by
    cases h with
    | signature hs => exact panicSignatures_nonempty _ hs
    | mmcError hne _ =>
      exact List.append_ne_nil_of_right_ne_nil _ (List.append_ne_nil_of_left_ne_nil hne _)

theorem panicSignatures_oneLine : ∀ s ∈ panicSignatures, 0x0A ∉ ascii s ∧ 0x0D ∉ ascii s := by
  decide +kernel

theorem PanicWord.oneLine {w : Bytes} {f : Option Bytes} (h : PanicWord w f) :
    0x0A ∉ w ∧ 0x0D ∉ w := by
  cases h with
  | signature hs => exact panicSignatures_oneLine _ hs
  | mmcError hne hds =>
    have hdigits (b : UInt8) (hb : isDigitByte b = false) : b ∉ _ := fun hm => by
      rw [hds b hm] at hb
      cases hb
    simp only [List.mem_append, not_or]
    exact ⟨⟨by decide +kernel, hdigits _ rfl, by decide +kernel⟩,
      by decide +kernel, hdigits _ rfl, by decide +kernel⟩

theorem dropPrefix?_eq_some {l p s : Bytes} : l.dropPrefix? p = some s ↔ l = p ++ s := by
  rw [List.dropPrefix?_eq_some_iff]
  constructor
  · rintro ⟨p', rfl, hp⟩
    rw [eq_of_beq hp]
  · rintro rfl
    exact ⟨p, rfl, beq_self_eq_true p⟩

theorem takeWhile_digits {ds r : Bytes} (hds : ∀ b ∈ ds, isDigitByte b = true)
    (hr : ∀ b t, r = b :: t → isDigitByte b = false) :
    (ds ++ r).takeWhile isDigitByte = ds ∧ (ds ++ r).dropWhile isDigitByte = r := by
  induction ds with
  | nil =>
    cases r with
    | nil => exact ⟨rfl, rfl⟩
    | cons b t =>
      have hb := hr b t rfl
      simp [hb]
  | cons d ds ih =>
    obtain ⟨htake, hdrop⟩ := ih fun b hb => hds b (List.mem_cons_of_mem _ hb)
    have hd := hds d (List.mem_cons_self ..)
    simp [hd, htake, hdrop]

theorem ascii_error_cons : ascii ": error" = 0x3A :: ascii " error" := by decide +kernel

theorem mmcErrorAt_iff {bs : Bytes} : mmcErrorAt bs = true ↔ ∃ ds t, ds ≠ [] ∧
    (∀ b ∈ ds, isDigitByte b = true) ∧ bs = ascii "mmc" ++ (ds ++ (ascii ": error" ++ t)) ∧
      ¬ ascii " -1 whilst initialising" <+: t := by
  rw [mmcErrorAt]
  constructor
  · intro h
    split at h
    · cases h
    · rename_i r hr
      rw [dropPrefix?_eq_some] at hr
      obtain ⟨hne, h⟩ := (Bool.and_eq_true _ _).mp h
      split at h
      · cases h
      · rename_i t ht
        rw [dropPrefix?_eq_some] at ht
        refine ⟨r.takeWhile isDigitByte, t, ?_, ?_, ?_, ?_⟩
        · rintro he
          rw [he] at hne
          cases hne
        · exact fun b hb => List.mem_takeWhile_imp hb
        · rw [← ht, List.takeWhile_append_dropWhile, hr]
        · intro hp
          rw [List.isPrefixOf_iff_prefix.2 hp] at h
          cases h
  · rintro ⟨ds, t, hne, hds, rfl, hp⟩
    have hcolon : ∀ b u, ascii ": error" ++ t = b :: u → isDigitByte b = false := by
      intro b u hbu
      rw [ascii_error_cons] at hbu
      cases hbu
      rfl
    obtain ⟨htake, hdrop⟩ := takeWhile_digits hds hcolon
    have hmmc : (ascii "mmc" ++ (ds ++ (ascii ": error" ++ t))).dropPrefix? (ascii "mmc") =
        some (ds ++ (ascii ": error" ++ t)) := dropPrefix?_eq_some.2 rfl
    have herr : (ascii ": error" ++ t).dropPrefix? (ascii ": error") = some t :=
      dropPrefix?_eq_some.2 rfl
    have hnp : (ascii " -1 whilst initialising").isPrefixOf t = false := by
      rw [← Bool.not_eq_true, List.isPrefixOf_iff_prefix]
      exact hp
    rw [hmmc]
    dsimp only
    rw [htake, hdrop, herr]
    cases ds with
    | nil => exact absurd rfl hne
    | cons d ds =>
      dsimp only
      rw [hnp]
      rfl

theorem panicAt_iff {bs : Bytes} : panicAt bs = true ↔ ∃ n, panicLexicon.Occurs bs 0 n := by
  rw [panicAt, Bool.or_eq_true, List.any_eq_true, mmcErrorAt_iff]
  constructor
  · rintro (⟨s, hs, hp⟩ | ⟨ds, t, hne, hds, rfl, hnp⟩)
    · exact ⟨_, _, none, .signature hs, rfl, List.isPrefixOf_iff_prefix.1 hp, by simp⟩
    · refine ⟨_, _, _, .mmcError hne hds, rfl, ⟨t, by simp⟩, ?_⟩
      rintro x ⟨⟩ hx
      rw [List.drop_zero, List.append_assoc, List.append_assoc] at hx
      exact hnp ((List.prefix_append_right_inj _).1 ((List.prefix_append_right_inj _).1
        ((List.prefix_append_right_inj _).1 hx)))
  · rintro ⟨n, w, f, hw, rfl, hp, hf⟩
    cases hw with
    | signature hs => exact .inl ⟨_, hs, List.isPrefixOf_iff_prefix.2 hp⟩
    | mmcError hne hds =>
      rename_i ds
      obtain ⟨t, ht⟩ := hp
      rw [List.drop_zero] at ht
      refine .inr ⟨ds, t, hne, hds, by rw [← ht]; simp, fun ⟨u, hu⟩ => hf _ rfl ⟨u, ?_⟩⟩
      rw [List.drop_zero, ← ht, ← hu]
      simp

theorem panicSearch_iff {bs : Bytes} : panicSearch bs = true ↔ panicLexicon.Found bs := by
  rw [panicSearch, List.any_eq_true]
  constructor
  · rintro ⟨t, ht, hp⟩
    obtain ⟨n, hn⟩ := panicAt_iff.1 hp
    exact Lexicon.Found.of_suffix ⟨0, n, hn⟩ ((List.mem_tails _ _).1 ht)
  · rintro ⟨i, n, hi⟩
    refine ⟨bs.drop i, (List.mem_tails _ _).2 (List.drop_suffix i bs), panicAt_iff.2 ⟨n, ?_⟩⟩
    exact Lexicon.occurs_drop.2 hi

end MesCore

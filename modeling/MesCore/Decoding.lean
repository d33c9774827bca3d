import MesCore.Text
import MesCore.Occurrence

namespace MesCore
set_option autoImplicit true

theorem encodeUtf8_append (s t : List Char) : encodeUtf8 (s ++ t) = encodeUtf8 s ++ encodeUtf8 t :=
  List.flatMap_append

theorem encodeUtf8_cons (c : Char) (s : List Char) :
    encodeUtf8 (c :: s) = String.utf8EncodeChar c ++ encodeUtf8 s :=
  List.flatMap_cons

theorem encodeUtf8_lines (ls : List (List Char)) :
    encodeUtf8 (ls.flatMap (· ++ ['\n'])) = (ls.map encodeUtf8).flatMap (· ++ [0x0A]) := by
  induction ls with
  | nil => rfl
  | cons l ls ih =>
    rw [List.flatMap_cons, encodeUtf8_append, encodeUtf8_append, ih, List.map_cons,
      List.flatMap_cons]
    rfl

/-- The next byte of an unfinished sequence is a continuation byte. -/
def Utf8Pending.Proper (p : Utf8Pending) : Prop := 0x80 ≤ p.low ∧ p.high ≤ 0xBF

theorem utf8Lead_proper {b : Nat} {p : Utf8Pending} (h : utf8Lead b = .pending p) : p.Proper := by
  unfold utf8Lead at h
  split_ifs at h <;> cases h <;> simp [Utf8Pending.Proper]

theorem decodeFrom_offend {p : Utf8Pending} {b : UInt8} (h : ¬ (p.low ≤ b.toNat ∧ b.toNat ≤ p.high))
    (bs : Bytes) :
    decodeFrom (some p) (b :: bs) = replacementChar :: decodeFrom none (b :: bs) := by
  rw [decodeFrom, decodeFrom, if_neg h]

theorem toNat_ofNat_eq {m n : Nat} (h : m = n) (hn : n < 256) : (UInt8.ofNat m).toNat = n := by
  rw [UInt8.toNat_ofNat', h]
  exact Nat.mod_eq_of_lt hn

theorem utf8EncodeChar_lead (c : Char) : ∃ b bs, String.utf8EncodeChar c = b :: bs ∧
    (b.toNat < 0x80 ∨ 0xC0 ≤ b.toNat) := by
  rw [String.utf8EncodeChar]
  split
  · refine ⟨_, _, rfl, .inl ?_⟩
    rw [UInt8.toNat_ofNat']
    omega
  · split
    · refine ⟨_, _, rfl, .inr ?_⟩
      rw [UInt8.toNat_ofNat']
      omega
    · split
      · refine ⟨_, _, rfl, .inr ?_⟩
        rw [UInt8.toNat_ofNat']
        omega
      · refine ⟨_, _, rfl, .inr ?_⟩
        rw [UInt8.toNat_ofNat']
        omega

section
variable {b : UInt8} {n low high bits : Nat}

theorem decodeFrom_more (hb : low ≤ b.toNat ∧ b.toNat ≤ high) (bs : Bytes) :
    decodeFrom (some ⟨n + 2, low, high, bits⟩) (b :: bs) =
      decodeFrom (some ⟨n + 1, 0x80, 0xBF, bits * 64 + b.toNat % 64⟩) bs := by
  rw [decodeFrom, if_pos hb, if_neg (by simp)]
  rfl

theorem decodeFrom_last (hb : low ≤ b.toNat ∧ b.toNat ≤ high) (bs : Bytes) :
    decodeFrom (some ⟨1, low, high, bits⟩) (b :: bs) =
      Char.ofNat (bits * 64 + b.toNat % 64) :: decodeFrom none bs := by
  rw [decodeFrom, if_pos hb, if_pos rfl]

theorem decodeFrom_lead {p : Utf8Pending} (h : utf8Lead b.toNat = .pending p) (bs : Bytes) :
    decodeFrom none (b :: bs) = decodeFrom (some p) bs := by
  rw [decodeFrom, h]

end

theorem utf8Lead_three {v : Nat} (h : 0x7FF < v) (h' : v ≤ 0xFFFF) (hs : v < 0xD800 ∨ 0xDFFF < v) :
    ∃ low high, utf8Lead (v / 4096 + 0xE0) = .pending ⟨2, low, high, v / 4096⟩ ∧
      low ≤ v / 64 % 64 + 0x80 ∧ v / 64 % 64 + 0x80 ≤ high := by
  have hbits : (v / 4096 + 0xE0) % 16 = v / 4096 := by omega
  rw [utf8Lead, if_neg (by omega), if_neg (by omega), if_neg (by omega), hbits]
  split
  · exact ⟨0xA0, 0xBF, rfl, by omega, by omega⟩
  · split
    · exact ⟨0x80, 0x9F, rfl, by omega, by omega⟩
    · rw [if_pos (by omega)]
      exact ⟨0x80, 0xBF, rfl, by omega, by omega⟩

theorem utf8Lead_four {v : Nat} (h : 0xFFFF < v) (h' : v < 0x110000) :
    ∃ low high, utf8Lead (v / 262144 + 0xF0) = .pending ⟨3, low, high, v / 262144⟩ ∧
      low ≤ v / 4096 % 64 + 0x80 ∧ v / 4096 % 64 + 0x80 ≤ high := by
  have hbits : (v / 262144 + 0xF0) % 8 = v / 262144 := by omega
  rw [utf8Lead, if_neg (by omega), if_neg (by omega), if_neg (by omega), if_neg (by omega),
    if_neg (by omega), if_neg (by omega), hbits]
  split
  · exact ⟨0x90, 0xBF, rfl, by omega, by omega⟩
  · split
    · exact ⟨0x80, 0xBF, rfl, by omega, by omega⟩
    · rw [if_pos (by omega)]
      exact ⟨0x80, 0x8F, rfl, by omega, by omega⟩

theorem decodeFrom_encode (c : Char) (bs : Bytes) :
    decodeFrom none (String.utf8EncodeChar c ++ bs) = c :: decodeFrom none bs := by
  have hvalid : c.toNat < 0xD800 ∨ (0xDFFF < c.toNat ∧ c.toNat < 0x110000) := c.valid
  have hv : c.val.toNat = c.toNat := rfl
  have hc : Char.ofNat c.toNat = c := Char.ofNat_toNat c
  rw [String.utf8EncodeChar]
  simp only [hv]
  generalize c.toNat = v at hvalid hc
  split
  · rename_i h1
    have hb : (UInt8.ofNat v).toNat = v :=
      toNat_ofNat_eq rfl (by omega)
    rw [List.singleton_append, decodeFrom, hb, utf8Lead, if_pos (by omega), hc]
  · split
    · rename_i h1 h2
      have hb : (UInt8.ofNat (v / 64 % 0x20 + 0xc0)).toNat = v / 64 + 0xC0 :=
        toNat_ofNat_eq (by omega) (by omega)
      have hlead : utf8Lead (v / 64 + 0xC0) = .pending ⟨1, 0x80, 0xBF, v / 64⟩ := by
        have hbits : (v / 64 + 0xC0) % 32 = v / 64 := by omega
        rw [utf8Lead, if_neg (by omega), if_neg (by omega), if_pos (by omega), hbits]
      have hb' : (UInt8.ofNat (v % 0x40 + 0x80)).toNat = v % 64 + 0x80 :=
        toNat_ofNat_eq (by omega) (by omega)
      have hv' : v / 64 * 64 + (v % 64 + 0x80) % 64 = v := by omega
      rw [List.cons_append, List.singleton_append, decodeFrom_lead (by rw [hb]; exact hlead),
        decodeFrom_last (by omega), hb', hv', hc]
    · split
      · rename_i h1 h2 h3
        obtain ⟨low, high, hlead, hrange⟩ := utf8Lead_three (v := v) (by omega) h3 (by omega)
        have hb₀ : (UInt8.ofNat (v / 4096 % 0x10 + 0xe0)).toNat = v / 4096 + 0xE0 :=
          toNat_ofNat_eq (by omega) (by omega)
        have hb₁ : (UInt8.ofNat (v / 64 % 0x40 + 0x80)).toNat = v / 64 % 64 + 0x80 :=
          toNat_ofNat_eq (by omega) (by omega)
        have hb₂ : (UInt8.ofNat (v % 0x40 + 0x80)).toNat = v % 64 + 0x80 :=
          toNat_ofNat_eq (by omega) (by omega)
        have hv' : (v / 4096 * 64 + (v / 64 % 64 + 0x80) % 64) * 64 + (v % 64 + 0x80) % 64 = v := by
          omega
        rw [List.cons_append, List.cons_append, List.singleton_append,
          decodeFrom_lead (by rw [hb₀]; exact hlead), decodeFrom_more (by rw [hb₁]; exact hrange),
          decodeFrom_last (by omega), hb₁, hb₂, hv', hc]
      · rename_i h1 h2 h3
        obtain ⟨low, high, hlead, hrange⟩ := utf8Lead_four (v := v) (by omega) (by omega)
        have hb₀ : (UInt8.ofNat (v / 262144 % 0x08 + 0xf0)).toNat = v / 262144 + 0xF0 :=
          toNat_ofNat_eq (by omega) (by omega)
        have hb₁ : (UInt8.ofNat (v / 4096 % 0x40 + 0x80)).toNat = v / 4096 % 64 + 0x80 :=
          toNat_ofNat_eq (by omega) (by omega)
        have hb₂ : (UInt8.ofNat (v / 64 % 0x40 + 0x80)).toNat = v / 64 % 64 + 0x80 :=
          toNat_ofNat_eq (by omega) (by omega)
        have hb₃ : (UInt8.ofNat (v % 0x40 + 0x80)).toNat = v % 64 + 0x80 :=
          toNat_ofNat_eq (by omega) (by omega)
        have hv' : ((v / 262144 * 64 + (v / 4096 % 64 + 0x80) % 64) * 64 +
            (v / 64 % 64 + 0x80) % 64) * 64 + (v % 64 + 0x80) % 64 = v := by
          omega
        rw [List.cons_append, List.cons_append, List.cons_append, List.singleton_append,
          decodeFrom_lead (by rw [hb₀]; exact hlead), decodeFrom_more (by rw [hb₁]; exact hrange),
          decodeFrom_more (by omega), decodeFrom_last (by omega), hb₁, hb₂, hb₃, hv', hc]

/-- Before a character the decoder has nothing left that could swallow it. -/
theorem decodeFrom_append {st : Option Utf8Pending} (hst : ∀ p ∈ st, p.Proper) (a : Bytes)
    (c : Char)
    (b : Bytes) : decodeFrom st (a ++ (String.utf8EncodeChar c ++ b)) =
      decodeFrom st a ++ c :: decodeFrom none b := by
  induction a generalizing st with
  | nil =>
    rw [List.nil_append]
    cases st with
    | none => exact decodeFrom_encode c b
    | some p =>
      obtain ⟨l, ls, hl, hlead⟩ := utf8EncodeChar_lead c
      have hp := hst p rfl
      have hout : ¬ (p.low ≤ l.toNat ∧ l.toNat ≤ p.high) := by
        rw [Utf8Pending.Proper] at hp
        omega
      rw [← decodeFrom_encode c b, hl, List.cons_append, decodeFrom_offend hout]
      rfl
  | cons x a ih =>
    rw [List.cons_append]
    have hnone : decodeFrom none (x :: (a ++ (String.utf8EncodeChar c ++ b))) =
        decodeFrom none (x :: a) ++ c :: decodeFrom none b := by
      rw [decodeFrom, decodeFrom]
      cases hx : utf8Lead x.toNat with
      | char d => exact congrArg (d :: ·) (ih (by simp))
      | pending p =>
        refine ih fun q hq => ?_
        cases hq
        exact utf8Lead_proper hx
      | invalid => exact congrArg (replacementChar :: ·) (ih (by simp))
    cases st with
    | none => exact hnone
    | some p =>
      by_cases hp : p.low ≤ x.toNat ∧ x.toNat ≤ p.high
      · rw [decodeFrom, decodeFrom, if_pos hp, if_pos hp]
        split
        · exact congrArg (_ :: ·) (ih (by simp))
        · refine ih fun q hq => ?_
          cases hq
          exact ⟨Nat.le_refl 0x80, Nat.le_refl 0xBF⟩
      · rw [decodeFrom_offend hp, decodeFrom_offend hp, hnone, List.cons_append]

theorem decodeReplace_append (a b : Bytes) (c : Char) :
    decodeReplace (a ++ (String.utf8EncodeChar c ++ b)) = decodeReplace a ++ c :: decodeReplace b :=
  decodeFrom_append (by simp) a c b

theorem decodeReplace_encode_append (s : List Char) (b : Bytes) :
    decodeReplace (encodeUtf8 s ++ b) = s ++ decodeReplace b := by
  induction s with
  | nil => rfl
  | cons c s ih =>
    rw [encodeUtf8_cons, List.append_assoc, decodeReplace, decodeFrom_encode, ← decodeReplace, ih,
      List.cons_append]

@[simp] theorem decodeReplace_encode (s : List Char) : decodeReplace (encodeUtf8 s) = s := by
  rw [← List.append_nil (encodeUtf8 s), decodeReplace_encode_append]
  exact List.append_nil s

theorem infix_decodeReplace {x : List Char} {b : Bytes} (h : encodeUtf8 x <:+: b) :
    x <:+: decodeReplace b := by
  obtain ⟨l, r, rfl⟩ := h
  cases x with
  | nil => exact List.nil_infix
  | cons c x =>
    rw [encodeUtf8_cons, List.append_assoc, List.append_assoc, decodeReplace_append,
      decodeReplace_encode_append, ← List.cons_append]
    exact List.infix_append' ..

/-- What is read of a beginning stays, but for a sequence that it breaks off. -/
theorem decodeFrom_beginning (st : Option Utf8Pending) (a : Bytes) : ∃ l e,
    decodeFrom st a = l ++ e ∧ (e = [] ∨ e = [replacementChar]) ∧
      ∀ b, l <+: decodeFrom st (a ++ b) := by
  induction a generalizing st with
  | nil =>
    refine ⟨[], decodeFrom st [], rfl, ?_, fun b => List.nil_prefix⟩
    cases st with
    | none => exact .inl rfl
    | some p => exact .inr rfl
  | cons x a ih =>
    have hcons {st' st'' : Option Utf8Pending} {c : Char}
        (h : ∀ b, decodeFrom st' (x :: b) = c :: decodeFrom st'' b) : ∃ l e,
        decodeFrom st' (x :: a) = l ++ e ∧ (e = [] ∨ e = [replacementChar]) ∧
          ∀ b, l <+: decodeFrom st' (x :: a ++ b) := by
      obtain ⟨l, e, hle, he, hl⟩ := ih st''
      refine ⟨c :: l, e, by rw [h, hle, List.cons_append], he, fun b => ?_⟩
      rw [List.cons_append, h]
      exact List.cons_prefix_cons.2 ⟨rfl, hl b⟩
    have hmore {st' st'' : Option Utf8Pending}
        (h : ∀ b, decodeFrom st' (x :: b) = decodeFrom st'' b) : ∃ l e,
        decodeFrom st' (x :: a) = l ++ e ∧ (e = [] ∨ e = [replacementChar]) ∧
          ∀ b, l <+: decodeFrom st' (x :: a ++ b) := by
      obtain ⟨l, e, hle, he, hl⟩ := ih st''
      refine ⟨l, e, by rw [h, hle], he, fun b => ?_⟩
      rw [List.cons_append, h]
      exact hl b
    have hnone : ∃ l e, decodeFrom none (x :: a) = l ++ e ∧ (e = [] ∨ e = [replacementChar]) ∧
        ∀ b, l <+: decodeFrom none (x :: a ++ b) := by
      cases hx : utf8Lead x.toNat with
      | char d => exact hcons fun b => by rw [decodeFrom, hx]
      | pending p => exact hmore (decodeFrom_lead hx)
      | invalid => exact hcons fun b => by rw [decodeFrom, hx]
    cases st with
    | none => exact hnone
    | some p =>
      by_cases hp : p.low ≤ x.toNat ∧ x.toNat ≤ p.high
      · by_cases hm : p.missing = 1
        · exact hcons fun b => by rw [decodeFrom, if_pos hp, if_pos hm]
        · exact hmore fun b => by rw [decodeFrom, if_pos hp, if_neg hm]
      · obtain ⟨l, e, hle, he, hl⟩ := hnone
        refine ⟨replacementChar :: l, e, ?_, he, fun b => ?_⟩
        · rw [decodeFrom_offend hp, hle, List.cons_append]
        · rw [List.cons_append, decodeFrom_offend hp]
          exact List.cons_prefix_cons.2 ⟨rfl, hl b⟩

theorem infix_decodeReplace_append {x : List Char} (hx : replacementChar ∉ x) {a : Bytes}
    (h : x <:+: decodeReplace a) (b : Bytes) : x <:+: decodeReplace (a ++ b) := by
  obtain ⟨l, e, hle, he, hl⟩ := decodeFrom_beginning none a
  rw [decodeReplace, hle] at h
  refine List.IsInfix.trans ?_ (hl b).isInfix
  rcases he with rfl | rfl
  · rwa [List.append_nil] at h
  · rcases infix_append_cons hx h with h | h
    · exact h
    · rw [List.infix_nil.1 h]
      exact List.nil_infix

/-- The beginning of an escape sequence that may still go on. -/
def Held (t : Bytes) : Prop :=
  t = [] ∨ t = [escByte] ∨
    ∃ ds, (∀ b ∈ ds, isAnsiParamByte b = true) ∧ t = escByte :: 0x5B :: ds

def isPlainByte (b : UInt8) : Bool :=
  !isAnsiParamByte b && !isLetterByte b && b != 0x5B && b != escByte

theorem stripAnsiFrom_plain {c : UInt8} (hc : isPlainByte c = true) (held bs : Bytes) :
    stripAnsiFrom held (c :: bs) = held ++ c :: stripAnsiFrom [] bs := by
  simp only [isPlainByte, Bool.and_eq_true, Bool.not_eq_true', bne_iff_ne, ne_eq] at hc
  obtain ⟨⟨⟨hparam, hletter⟩, hopen⟩, hesc⟩ := hc
  cases held with
  | nil => rw [stripAnsiFrom, if_neg hesc, List.nil_append]
  | cons h hs =>
    rw [stripAnsiFrom, if_neg hesc, if_neg hopen, hparam, hletter]
    split
    · rename_i hnil
      rw [hnil]
      rfl
    · rfl

theorem Held.bracket {h : UInt8} (hh : Held [h]) : Held [h, 0x5B] := by
  rcases hh with hh | hh | ⟨ds, -, hh⟩
  · cases hh
  · cases hh
    exact .inr (.inr ⟨[], by simp, rfl⟩)
  · cases hh

theorem Held.param {h b : UInt8} {hs : Bytes} (hh : Held (h :: hs)) (hne : hs ≠ [])
    (hb : isAnsiParamByte b = true) : Held (h :: hs ++ [b]) := by
  rcases hh with hh | hh | ⟨ds, hds, hh⟩
  · cases hh
  · cases hh
    exact (hne rfl).elim
  · rw [hh]
    refine .inr (.inr ⟨ds ++ [b], fun x hx => ?_, rfl⟩)
    rcases List.mem_append.1 hx with hx | hx
    · exact hds x hx
    · rwa [List.mem_singleton.1 hx]

/-- What is stripped of a beginning stays, but for what it holds at its end. -/
theorem stripAnsiFrom_beginning {held : Bytes} (hheld : Held held) (a : Bytes) : ∃ w t,
    stripAnsiFrom held a = w ++ t ∧ Held t ∧
      ∀ b, stripAnsiFrom held (a ++ b) = w ++ stripAnsiFrom t b := by
  fun_induction stripAnsiFrom held a with
  | case1 held => exact ⟨[], held, rfl, hheld, fun b => rfl⟩
  | case2 bs ih =>
    obtain ⟨w, t, hw, ht, hgo⟩ := ih (.inr (.inl rfl))
    refine ⟨w, t, hw, ht, fun b => ?_⟩
    rw [List.cons_append, stripAnsiFrom, if_pos rfl, hgo]
  | case3 x bs hx ih =>
    obtain ⟨w, t, hw, ht, hgo⟩ := ih (.inl rfl)
    refine ⟨x :: w, t, by rw [hw, List.cons_append], ht, fun b => ?_⟩
    rw [List.cons_append, stripAnsiFrom, if_neg hx, hgo, List.cons_append]
  | case4 h bs ih =>
    obtain ⟨w, t, hw, ht, hgo⟩ := ih hheld.bracket
    refine ⟨w, t, hw, ht, fun b => ?_⟩
    rw [List.cons_append, stripAnsiFrom, if_pos rfl, if_pos rfl, hgo]
  | case5 h x bs hx ihesc ih =>
    split
    · rename_i hesc
      obtain ⟨w, t, hw, ht, hgo⟩ := ihesc (hesc ▸ .inr (.inl rfl))
      refine ⟨h :: w, t, by rw [hw, List.cons_append], ht, fun b => ?_⟩
      rw [List.cons_append, stripAnsiFrom, if_pos rfl, if_neg hx, if_pos hesc, hgo,
        List.cons_append]
    · rename_i hesc
      obtain ⟨w, t, hw, ht, hgo⟩ := ih (.inl rfl)
      refine ⟨h :: x :: w, t, by rw [hw]; rfl, ht, fun b => ?_⟩
      rw [List.cons_append, stripAnsiFrom, if_pos rfl, if_neg hx, if_neg hesc, hgo]
      rfl
  | case6 h hs x bs hhs hx ih =>
    obtain ⟨w, t, hw, ht, hgo⟩ := ih (hheld.param hhs hx)
    refine ⟨w, t, hw, ht, fun b => ?_⟩
    rw [List.cons_append, stripAnsiFrom, if_neg hhs, if_pos hx, hgo]
  | case7 h hs x bs hhs hx hletter ih =>
    obtain ⟨w, t, hw, ht, hgo⟩ := ih (.inl rfl)
    refine ⟨w, t, hw, ht, fun b => ?_⟩
    rw [List.cons_append, stripAnsiFrom, if_neg hhs, if_neg hx, if_pos hletter, hgo]
  | case8 h hs x bs hhs hx hletter ihesc ih =>
    split
    · rename_i hesc
      obtain ⟨w, t, hw, ht, hgo⟩ := ihesc (hesc ▸ .inr (.inl rfl))
      refine ⟨h :: hs ++ w, t, by rw [hw, List.append_assoc], ht, fun b => ?_⟩
      rw [List.cons_append, stripAnsiFrom, if_neg hhs, if_neg hx, if_neg hletter, if_pos hesc, hgo,
        List.append_assoc]
    · rename_i hesc
      obtain ⟨w, t, hw, ht, hgo⟩ := ih (.inl rfl)
      refine ⟨h :: hs ++ x :: w, t, by rw [hw]; simp, ht, fun b => ?_⟩
      rw [List.cons_append, stripAnsiFrom, if_neg hhs, if_neg hx, if_neg hletter, if_neg hesc, hgo]
      simp

theorem stripAnsi_eq_self {bs : Bytes} (h : escByte ∉ bs) : stripAnsi bs = bs := by
  induction bs with
  | nil => rfl
  | cons b bs ih =>
    rw [List.mem_cons, not_or] at h
    rw [stripAnsi, stripAnsiFrom, if_neg (Ne.symm h.1), ← stripAnsi, ih h.2]

theorem stripAnsi_append_cons {c : UInt8} (hc : isPlainByte c = true) (a b : Bytes) :
    stripAnsi (a ++ c :: b) = stripAnsi a ++ c :: stripAnsi b := by
  obtain ⟨w, t, hw, -, hgo⟩ := stripAnsiFrom_beginning (.inl rfl) a
  rw [stripAnsi, hgo, stripAnsiFrom_plain hc, stripAnsi, hw, List.append_assoc]
  rfl

/-- A character that stands in an escape sequence before its last one. -/
def isCsiChar (c : Char) : Bool := c == '[' || c == ';' || c.isDigit

theorem isAnsiParamByte_csi {b : UInt8} (h : isAnsiParamByte b = true) :
    b.toNat < 0x80 ∧ isCsiChar (Char.ofNat b.toNat) = true := by
  have hall : ∀ n < 256, isAnsiParamByte (UInt8.ofNat n) = true →
      n < 0x80 ∧ isCsiChar (Char.ofNat n) = true := by decide +kernel
  exact hall b.toNat b.toNat_lt (by rwa [UInt8.ofNat_toNat])

theorem decodeFrom_ascii {b : UInt8} (h : b.toNat < 0x80) (bs : Bytes) :
    decodeFrom none (b :: bs) = Char.ofNat b.toNat :: decodeFrom none bs := by
  rw [decodeFrom, utf8Lead, if_pos h]

theorem csi_of_mem_decode {ds : Bytes} (h : ∀ b ∈ ds, isAnsiParamByte b = true) :
    ∀ c ∈ decodeReplace ds, isCsiChar c = true := by
  induction ds with
  | nil => simp [decodeReplace, decodeFrom]
  | cons b ds ih =>
    obtain ⟨hb, hcsi⟩ := isAnsiParamByte_csi (h b (List.mem_cons_self ..))
    intro c hc
    rw [decodeReplace, decodeFrom_ascii hb] at hc
    rcases List.mem_cons.1 hc with rfl | hc
    · exact hcsi
    · exact ih (fun x hx => h x (List.mem_cons_of_mem _ hx)) c hc

theorem Held.cases {t : Bytes} (h : Held t) :
    t = [] ∨ ∃ r, t = escByte :: r ∧ ∀ c ∈ decodeReplace r, isCsiChar c = true := by
  rcases h with rfl | rfl | ⟨ds, hds, rfl⟩
  · exact .inl rfl
  · exact .inr ⟨[], rfl, csi_of_mem_decode (by simp)⟩
  · refine .inr ⟨_, rfl, fun c hc => ?_⟩
    rw [decodeReplace, decodeFrom_ascii (by decide)] at hc
    rcases List.mem_cons.1 hc with rfl | hc
    · decide
    · exact csi_of_mem_decode hds c hc

/-- A text that no beginning of an escape sequence can show. -/
structure Plain (x : List Char) : Prop where
  escape : Char.ofNat 0x1B ∉ x
  plain : ∃ c ∈ x, isCsiChar c = false

section
variable {x : List Char} {a : Bytes}

theorem Plain.not_shown (h : Plain x) {s : List Char} (hs : ∀ c ∈ s, isCsiChar c = true) :
    ¬ x <:+: s := by
  intro hx
  obtain ⟨c, hc, hplain⟩ := h.plain
  rw [hs c (hx.subset hc)] at hplain
  cases hplain

/-- What the bytes show once stripped, they still show when more have come. -/
theorem Plain.infix_stripAnsi (h : Plain x) (hx : encodeUtf8 x <:+: stripAnsi a) (b : Bytes) :
    encodeUtf8 x <:+: stripAnsi (a ++ b) := by
  obtain ⟨w, t, hw, ht, hgo⟩ := stripAnsiFrom_beginning (.inl rfl) a
  rw [stripAnsi, hgo]
  refine List.IsInfix.trans ?_ (List.prefix_append w _).isInfix
  rw [stripAnsi, hw] at hx
  rcases ht.cases with rfl | ⟨r, rfl, hr⟩
  · rwa [List.append_nil] at hx
  · have hesc : escByte ∉ encodeUtf8 x := by
      intro hmem
      have hin : [Char.ofNat 0x1B] <:+: decodeReplace (encodeUtf8 x) :=
        infix_decodeReplace ((List.singleton_infix_iff ..).2 hmem)
      rw [decodeReplace_encode] at hin
      exact h.escape ((List.singleton_infix_iff ..).1 hin)
    rcases infix_append_cons hesc hx with hx | hx
    · exact hx
    · exact (h.not_shown hr (infix_decodeReplace hx)).elim

theorem Plain.infix_sanitise (h : Plain x) (hrepl : replacementChar ∉ x) (hx : x <:+: sanitise a)
    (b : Bytes) : x <:+: sanitise (a ++ b) := by
  obtain ⟨w, t, hw, ht, hgo⟩ := stripAnsiFrom_beginning (.inl rfl) a
  rw [sanitise, stripAnsi, hgo]
  refine infix_decodeReplace_append hrepl ?_ _
  rw [sanitise, stripAnsi, hw] at hx
  rcases ht.cases with rfl | ⟨r, rfl, hr⟩
  · rwa [List.append_nil] at hx
  · have hread : decodeReplace (w ++ escByte :: r) =
        decodeReplace w ++ Char.ofNat 0x1B :: decodeReplace r :=
      decodeReplace_append w r (Char.ofNat 0x1B)
    rw [hread] at hx
    rcases infix_append_cons h.escape hx with hx | hx
    · exact hx
    · exact (h.not_shown hr hx).elim

end

theorem sanitise_append_cons {c : Char} {b : UInt8} (hb : String.utf8EncodeChar c = [b])
    (hplain : isPlainByte b = true) (l r : Bytes) :
    sanitise (l ++ b :: r) = sanitise l ++ c :: sanitise r := by
  have hread := decodeReplace_append (stripAnsi l) (stripAnsi r) c
  rw [hb] at hread
  rw [sanitise, stripAnsi_append_cons hplain]
  exact hread

theorem sanitise_append_newline (l r : Bytes) :
    sanitise (l ++ 0x0A :: r) = sanitise l ++ '\n' :: sanitise r :=
  sanitise_append_cons (by decide) (by decide) l r

end MesCore

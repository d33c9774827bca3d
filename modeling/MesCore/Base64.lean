import Mathlib.Data.List.Basic

namespace Base64
set_option autoImplicit true

def padByte : UInt8 := 0x3D

def symbol (n : Nat) : UInt8 :=
  if n < 26 then UInt8.ofNat (0x41 + n)
  else if n < 52 then UInt8.ofNat (0x61 + (n - 26))
  else if n < 62 then UInt8.ofNat (0x30 + (n - 52))
  else if n = 62 then 0x2B
  else 0x2F

def value? (c : UInt8) : Option Nat :=
  if 0x41 ≤ c ∧ c ≤ 0x5A then some (c.toNat - 0x41)
  else if 0x61 ≤ c ∧ c ≤ 0x7A then some (c.toNat - 0x61 + 26)
  else if 0x30 ≤ c ∧ c ≤ 0x39 then some (c.toNat - 0x30 + 52)
  else if c = 0x2B then some 62
  else if c = 0x2F then some 63
  else none

def encode : List UInt8 → List UInt8
  | [] => []
  | [a] => [symbol (a.toNat / 4), symbol (a.toNat % 4 * 16), padByte, padByte]
  | [a, b] =>
    [symbol (a.toNat / 4), symbol (a.toNat % 4 * 16 + b.toNat / 16), symbol (b.toNat % 16 * 4),
      padByte]
  | a :: b :: c :: rest =>
    symbol (a.toNat / 4) :: symbol (a.toNat % 4 * 16 + b.toNat / 16) ::
      symbol (b.toNat % 16 * 4 + c.toNat / 64) :: symbol (c.toNat % 64) :: encode rest

/-- A decoder inside a quad: the symbols of it so far, the bits of the last one that belong to the
next byte, and the pads seen since. -/
structure Quad where
  pos : Nat := 0
  left : Nat := 0
  pads : Nat := 0
  deriving DecidableEq

inductive DecodeError
  | dataCharacters (n : Nat)
  | incorrectPadding
  deriving DecidableEq

/-- One more symbol: the bytes it completes, and where the quad is then. -/
def Quad.symbol (q : Quad) (v : Nat) : List UInt8 × Quad :=
  match q.pos with
  | 0 => ([], ⟨1, v, 0⟩)
  | 1 => ([UInt8.ofNat (q.left * 4 + v / 16)], ⟨2, v % 16, 0⟩)
  | 2 => ([UInt8.ofNat (q.left * 16 + v / 4)], ⟨3, v % 4, 0⟩)
  | _ => ([UInt8.ofNat (q.left * 64 + v)], ⟨0, 0, 0⟩)

/-- The lenient decoder: a byte outside the alphabet is skipped, and so is a pad that cannot end the
data. Pads that complete a quad do, and what follows them is not read. -/
def decodeFrom (q : Quad) (out : List UInt8) : List UInt8 → Except DecodeError (List UInt8)
  | [] =>
    if q.pos = 0 then .ok out
    else if q.pos = 1 then .error (.dataCharacters (out.length / 3 * 4 + 1))
    else .error .incorrectPadding
  | c :: cs =>
    if c = padByte then
      if 2 ≤ q.pos then
        if 4 ≤ q.pos + (q.pads + 1) then .ok out
        else decodeFrom { q with pads := q.pads + 1 } out cs
      else decodeFrom q out cs
    else
      match value? c with
      | none => decodeFrom q out cs
      | some v => decodeFrom (q.symbol v).2 (out ++ (q.symbol v).1) cs

def decode (cs : List UInt8) : Except DecodeError (List UInt8) := decodeFrom {} [] cs

section
variable {n : Nat} {q : Quad} {out : List UInt8}

theorem value?_symbol (hn : n < 64) : value? (symbol n) = some n := by
  have h : ∀ n : Fin 64, value? (symbol n) = some n.val := by decide
  exact h ⟨n, hn⟩

theorem symbol_ne_padByte (hn : n < 64) : symbol n ≠ padByte := by
  have h : ∀ n : Fin 64, symbol n ≠ padByte := by decide
  exact h ⟨n, hn⟩

theorem symbol_lt (hn : n < 64) : (symbol n).toNat < 0x80 := by
  have h : ∀ n : Fin 64, (symbol n).toNat < 0x80 := by decide
  exact h ⟨n, hn⟩

theorem decodeFrom_symbol (hn : n < 64) (cs : List UInt8) :
    decodeFrom q out (symbol n :: cs) = decodeFrom (q.symbol n).2 (out ++ (q.symbol n).1) cs := by
  rw [decodeFrom, if_neg (symbol_ne_padByte hn), value?_symbol hn]

theorem decodeFrom_pad_one (left : Nat) (cs : List UInt8) :
    decodeFrom ⟨3, left, 0⟩ out (padByte :: cs) = .ok out := rfl

theorem decodeFrom_pad_two (left : Nat) (cs : List UInt8) :
    decodeFrom ⟨2, left, 0⟩ out (padByte :: padByte :: cs) = .ok out := rfl

end

theorem byte_of_parts {a : UInt8} {n : Nat} (h : n = a.toNat) : UInt8.ofNat n = a := by
  rw [h, UInt8.ofNat_toNat]

theorem decodeFrom_encode (data out : List UInt8) :
    decodeFrom {} out (encode data) = .ok (out ++ data) := by
  induction data using encode.induct generalizing out with
  | case1 => simp [encode, decodeFrom]
  | case2 a =>
    have ha := a.toNat_lt
    rw [encode, decodeFrom_symbol (by omega), decodeFrom_symbol (by omega)]
    simp only [Quad.symbol, List.append_nil]
    rw [decodeFrom_pad_two, byte_of_parts (a := a) (by omega)]
  | case3 a b =>
    have ha := a.toNat_lt
    have hb := b.toNat_lt
    rw [encode, decodeFrom_symbol (by omega), decodeFrom_symbol (by omega),
      decodeFrom_symbol (by omega)]
    simp only [Quad.symbol, List.append_nil]
    rw [decodeFrom_pad_one, byte_of_parts (a := a) (by omega), byte_of_parts (a := b) (by omega),
      List.append_assoc]
    rfl
  | case4 a b c rest ih =>
    have ha := a.toNat_lt
    have hb := b.toNat_lt
    have hc := c.toNat_lt
    rw [encode, decodeFrom_symbol (by omega), decodeFrom_symbol (by omega),
      decodeFrom_symbol (by omega), decodeFrom_symbol (by omega)]
    simp only [Quad.symbol, List.append_nil]
    rw [byte_of_parts (a := a) (by omega), byte_of_parts (a := b) (by omega),
      byte_of_parts (a := c) (by omega), ih]
    simp only [List.append_assoc, List.cons_append, List.nil_append]

theorem decode_encode (data : List UInt8) : decode (encode data) = .ok data :=
  decodeFrom_encode data []

theorem encode_injective {data data' : List UInt8} (h : encode data = encode data') :
    data = data' := by
  have hdecode := decode_encode data
  rw [h, decode_encode] at hdecode
  exact (Except.ok.inj hdecode).symm

theorem encode_length {data : List UInt8} (h : data ≠ []) : 4 ≤ (encode data).length := by
  cases data using encode.induct with
  | case1 => exact absurd rfl h
  | case2 a => exact Nat.le_refl 4
  | case3 a b => exact Nat.le_refl 4
  | case4 a b c rest ih => exact Nat.le_add_left 4 (encode rest).length

theorem mem_encode {data : List UInt8} {c : UInt8} (hc : c ∈ encode data) :
    c = padByte ∨ ∃ n < 64, c = symbol n := by
  induction data using encode.induct with
  | case1 => cases hc
  | case2 a =>
    have ha := a.toNat_lt
    simp only [encode, List.mem_cons, List.not_mem_nil, or_false] at hc
    rcases hc with h | h | h | h
    · exact .inr ⟨_, by omega, h⟩
    · exact .inr ⟨_, by omega, h⟩
    · exact .inl h
    · exact .inl h
  | case3 a b =>
    have ha := a.toNat_lt
    have hb := b.toNat_lt
    simp only [encode, List.mem_cons, List.not_mem_nil, or_false] at hc
    rcases hc with h | h | h | h
    · exact .inr ⟨_, by omega, h⟩
    · exact .inr ⟨_, by omega, h⟩
    · exact .inr ⟨_, by omega, h⟩
    · exact .inl h
  | case4 a b c rest ih =>
    have ha := a.toNat_lt
    have hb := b.toNat_lt
    have hc' := c.toNat_lt
    simp only [encode, List.mem_cons] at hc
    rcases hc with h | h | h | h | h
    · exact .inr ⟨_, by omega, h⟩
    · exact .inr ⟨_, by omega, h⟩
    · exact .inr ⟨_, by omega, h⟩
    · exact .inr ⟨_, by omega, h⟩
    · exact ih h

theorem encode_ascii {data : List UInt8} {c : UInt8} (hc : c ∈ encode data) : c.toNat < 0x80 := by
  rcases mem_encode hc with rfl | ⟨n, hn, rfl⟩
  · decide
  · exact symbol_lt hn

theorem notMem_encode {data : List UInt8} {c : UInt8} (hpad : c ≠ padByte) (hc : value? c = none) :
    c ∉ encode data := by
  intro hmem
  rcases mem_encode hmem with h | ⟨n, hn, rfl⟩
  · exact hpad h
  · rw [value?_symbol hn] at hc
    cases hc

theorem encode_no_quote {data : List UInt8} : (0x22 : UInt8) ∉ encode data :=
  notMem_encode (by decide) (by decide)

end Base64

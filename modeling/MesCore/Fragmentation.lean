import MesCore.UartParser
import Mathlib.Algebra.GroupWithZero.Nat

namespace MesCore
set_option autoImplicit true

def escapeChar : Char := Char.ofNat 0x1B

def startPending (b : UInt8) : Option Utf8Pending :=
  match utf8Lead b.toNat with
  | .pending p => some p
  | .char _ | .invalid => none

def nextPending : Option Utf8Pending → UInt8 → Option Utf8Pending
  | none, b => startPending b
  | some p, b =>
    if p.low ≤ b.toNat ∧ b.toNat ≤ p.high then
      if p.missing = 1 then none
      else some ⟨p.missing - 1, 0x80, 0xBF, p.bits * 64 + b.toNat % 64⟩
    else startPending b

def pendingAfter (st : Option Utf8Pending) (a : Bytes) : Option Utf8Pending :=
  a.foldl nextPending st

/-- The first of these bytes continues a character that the bytes before have begun. -/
def CutsCharacter (a b : Bytes) : Prop :=
  ∃ p ∈ pendingAfter none a, ∃ c ∈ b.head?, p.low ≤ c.toNat ∧ c.toNat ≤ p.high

/-- These bytes complete an escape sequence that the bytes before have begun. -/
def CutsEscape (a b : Bytes) : Prop :=
  ∃ before held, decodeReplace a = before ++ escapeChar :: held ∧ escapeChar ∉ held ∧
    escapeTail held = none ∧ (escapeTail (held ++ decodeReplace b)).isSome = true

/-- No chunk continues a character or completes an escape sequence that the chunks before it have
begun. -/
def CleanlyCut (chunks : List Bytes) : Prop :=
  ∀ before chunk after, chunks = before ++ chunk :: after →
    ¬ CutsCharacter before.flatten chunk ∧ ¬ CutsEscape before.flatten chunk

section
variable {st : Option Utf8Pending} {p : Utf8Pending} {b : UInt8}

theorem decodeFrom_step (st : Option Utf8Pending) (b : UInt8) :
    ∃ l, ∀ bs, decodeFrom st (b :: bs) = l ++ decodeFrom (nextPending st b) bs := by
  have hstart : ∃ l, ∀ bs, decodeFrom none (b :: bs) = l ++ decodeFrom (startPending b) bs := by
    cases hb : utf8Lead b.toNat with
    | char c => exact ⟨[c], fun bs => by rw [decodeFrom, startPending, hb]; rfl⟩
    | pending p => exact ⟨[], fun bs => by rw [decodeFrom, startPending, hb]; rfl⟩
    | invalid => exact ⟨[replacementChar], fun bs => by rw [decodeFrom, startPending, hb]; rfl⟩
  cases st with
  | none => exact hstart
  | some p =>
    by_cases hp : p.low ≤ b.toNat ∧ b.toNat ≤ p.high
    · by_cases hm : p.missing = 1
      · refine ⟨[Char.ofNat (p.bits * 64 + b.toNat % 64)], fun bs => ?_⟩
        rw [decodeFrom, nextPending, if_pos hp, if_pos hm, if_pos hp, if_pos hm]
        rfl
      · refine ⟨[], fun bs => ?_⟩
        rw [decodeFrom, nextPending, if_pos hp, if_neg hm, if_pos hp, if_neg hm]
        rfl
    · obtain ⟨l, hl⟩ := hstart
      refine ⟨replacementChar :: l, fun bs => ?_⟩
      rw [decodeFrom_offend hp, hl, nextPending, if_neg hp]
      rfl

theorem decodeFrom_pendingAfter (st : Option Utf8Pending) (a : Bytes) :
    ∃ l, ∀ b, decodeFrom st (a ++ b) = l ++ decodeFrom (pendingAfter st a) b := by
  induction a generalizing st with
  | nil => exact ⟨[], fun b => rfl⟩
  | cons x a ih =>
    obtain ⟨l, hl⟩ := decodeFrom_step st x
    obtain ⟨k, hk⟩ := ih (nextPending st x)
    refine ⟨l ++ k, fun b => ?_⟩
    rw [List.cons_append, hl, hk, List.append_assoc]
    rfl

/-- A sequence that can only be completed to a character beyond ASCII. -/
structure Utf8Pending.Wide (p : Utf8Pending) : Prop where
  proper : p.Proper
  missing : 1 ≤ p.missing
  wide : 0x80 ≤ (p.bits * 64 + p.low % 64) * 64 ^ (p.missing - 1)

theorem startPending_wide (h : startPending b = some p) : p.Wide := by
  rw [startPending] at h
  split at h
  · rename_i q hq
    cases h
    refine ⟨utf8Lead_proper hq, ?_, ?_⟩
    · unfold utf8Lead at hq
      split_ifs at hq <;> cases hq <;> simp
    · unfold utf8Lead at hq
      split_ifs at hq <;> cases hq <;> dsimp only <;> omega
  · cases h
  · cases h

theorem Utf8Pending.Wide.next (h : p.Wide) (hb : p.low ≤ b.toNat ∧ b.toNat ≤ p.high)
    (hm : p.missing ≠ 1) :
    Utf8Pending.Wide ⟨p.missing - 1, 0x80, 0xBF, p.bits * 64 + b.toNat % 64⟩ := by
  obtain ⟨⟨hlow, hhigh⟩, hmissing, hwide⟩ := h
  refine ⟨⟨Nat.le_refl _, Nat.le_refl _⟩, by dsimp only; omega, ?_⟩
  obtain ⟨n, hn⟩ : ∃ n, p.missing = n + 2 := ⟨p.missing - 2, by omega⟩
  rw [hn] at hwide
  dsimp only
  rw [hn]
  have hle : p.bits * 64 + p.low % 64 ≤ p.bits * 64 + b.toNat % 64 := by omega
  calc 0x80 ≤ (p.bits * 64 + p.low % 64) * 64 ^ (n + 1) := hwide
    _ ≤ (p.bits * 64 + b.toNat % 64) * 64 ^ (n + 1) := Nat.mul_le_mul_right _ hle
    _ = ((p.bits * 64 + b.toNat % 64) * 64 + 0x80 % 64) * 64 ^ (n + 2 - 1 - 1) := by
      rw [Nat.pow_succ, Nat.mul_comm (64 ^ n), ← Nat.mul_assoc]
      rfl

theorem nextPending_wide (hst : ∀ q ∈ st, q.Wide) (h : nextPending st b = some p) : p.Wide := by
  cases st with
  | none => exact startPending_wide h
  | some q =>
    rw [nextPending] at h
    split at h
    · rename_i hb
      split at h
      · cases h
      · cases h
        exact (hst q rfl).next hb ‹_›
    · exact startPending_wide h

theorem pendingAfter_wide {a : Bytes} (hst : ∀ q ∈ st, q.Wide) (h : pendingAfter st a = some p) :
    p.Wide := by
  induction a generalizing st with
  | nil => exact hst p h
  | cons x a ih => exact ih (fun q hq => nextPending_wide hst hq) h

/-- A character that no escape sequence has in it. -/
def Foreign (c : Char) : Prop := charIn 0x20 0x7E c = false ∧ c ≠ escapeChar

theorem foreign_replacementChar : Foreign replacementChar := ⟨by decide, by decide⟩

theorem foreign_ofNat {n : Nat} (h : 0x80 ≤ n) : Foreign (Char.ofNat n) := by
  have hnat : (Char.ofNat n).toNat = 0 ∨ 0x80 ≤ (Char.ofNat n).toNat := by
    by_cases hn : n.isValidChar
    · right
      rw [Char.ofNat, dif_pos hn]
      exact h
    · left
      rw [Char.ofNat, dif_neg hn]
      rfl
  constructor
  · rw [charIn, Bool.and_eq_false_iff, decide_eq_false_iff_not, decide_eq_false_iff_not]
    omega
  · intro hesc
    rw [hesc, show escapeChar.toNat = 0x1B from rfl] at hnat
    omega

/-- What is left to complete: one character, where each byte of it on its own is a replacement. -/
theorem decodeFrom_resumed (h : p.Wide) (bs : Bytes) : ∃ c n t,
    decodeFrom (some p) bs = c :: t ∧ decodeFrom none bs = List.replicate n replacementChar ++ t ∧
      Foreign c ∧ ∀ x ∈ bs.head?, p.low ≤ x.toNat ∧ x.toNat ≤ p.high → 0 < n := by
  induction bs generalizing p with
  | nil => exact ⟨replacementChar, 0, [], rfl, rfl, foreign_replacementChar, by simp⟩
  | cons x bs ih =>
    by_cases hx : p.low ≤ x.toNat ∧ x.toNat ≤ p.high
    · have hrepl : decodeFrom none (x :: bs) = replacementChar :: decodeFrom none bs := by
        obtain ⟨hlow, hhigh⟩ := h.proper
        have hlead : utf8Lead x.toNat = .invalid := by
          rw [utf8Lead, if_neg (by omega), if_pos (by omega)]
        rw [decodeFrom, hlead]
      by_cases hm : p.missing = 1
      · have hwide := h.wide
        rw [hm, Nat.sub_self, Nat.pow_zero, Nat.mul_one] at hwide
        have hlow := h.proper.1
        have hhigh := h.proper.2
        refine ⟨Char.ofNat (p.bits * 64 + x.toNat % 64), 1, decodeFrom none bs, ?_, hrepl,
          foreign_ofNat (by omega), fun _ _ _ => Nat.one_pos⟩
        rw [decodeFrom, if_pos hx, if_pos hm]
      · obtain ⟨c, n, t, hc, ht, hforeign, -⟩ := ih (h.next hx hm)
        refine ⟨c, n + 1, t, ?_, ?_, hforeign, fun _ _ _ => Nat.succ_pos n⟩
        · rw [decodeFrom, if_pos hx, if_neg hm, hc]
        · rw [hrepl, ht]
          rfl
    · refine ⟨_, 0, _, decodeFrom_offend hx bs, rfl, foreign_replacementChar, ?_⟩
      intro y hy hfit
      cases hy
      exact (hx hfit).elim

end

section
variable {u v r a b : List Char} {c : Char}

theorem charIn_iff {lo hi : Nat} : charIn lo hi c = true ↔ lo ≤ c.toNat ∧ c.toNat ≤ hi := by
  rw [charIn, Bool.and_eq_true, decide_eq_true_iff, decide_eq_true_iff]

theorem charIn_mono {lo hi lo' hi' : Nat} (h : charIn lo hi c = true) (hlo : lo' ≤ lo)
    (hhi : hi ≤ hi') : charIn lo' hi' c = true := by
  rw [charIn_iff] at h ⊢
  omega

theorem not_charIn {lo hi lo' hi' : Nat} (h : charIn lo hi c = true) (hd : hi < lo' ∨ hi' < lo) :
    ¬ charIn lo' hi' c = true := by
  rw [charIn_iff] at h ⊢
  omega

/-- The parameters, intermediates and final character of a control sequence are read off. -/
theorem dropWhile_control {ps is : List Char} (hps : ∀ c ∈ ps, charIn 0x30 0x3F c = true)
    (his : ∀ c ∈ is, charIn 0x20 0x2F c = true) (hc : charIn 0x40 0x7E c = true) (v : List Char) :
    ((ps ++ (is ++ c :: v)).dropWhile (charIn 0x30 0x3F)).dropWhile (charIn 0x20 0x2F) =
      c :: v := by
  have hparams : (is ++ c :: v).dropWhile (charIn 0x30 0x3F) = is ++ c :: v := by
    cases is with
    | nil => exact List.dropWhile_cons_of_neg (not_charIn hc (by omega))
    | cons i is =>
      exact List.dropWhile_cons_of_neg (not_charIn (his i (List.mem_cons_self ..)) (by omega))
  rw [List.dropWhile_append_of_pos hps, hparams, List.dropWhile_append_of_pos his,
    List.dropWhile_cons_of_neg (not_charIn hc (by omega))]

/-- A complete escape sequence is one whatever follows it, and is made of printable characters
behind its first. -/
theorem escapeTail_some (h : escapeTail u = some r) : ∃ m, u = m ++ r ∧
    (∀ c ∈ m, charIn 0x20 0x7E c = true) ∧ ∀ v, escapeTail (m ++ v) = some v := by
  cases u with
  | nil => cases h
  | cons c cs =>
    rw [escapeTail] at h
    split at h
    · rename_i hc
      cases h
      refine ⟨[c], rfl, ?_, fun v => by rw [List.singleton_append, escapeTail, if_pos hc]⟩
      rw [Bool.or_eq_true] at hc
      intro x hx
      rw [List.mem_singleton.1 hx]
      rcases hc with hc | hc
      · exact charIn_mono hc (by omega) (by omega)
      · exact charIn_mono hc (by omega) (by omega)
    · split at h
      · rename_i hc hbracket
        have hparams : ∀ x ∈ cs.takeWhile (charIn 0x30 0x3F), charIn 0x30 0x3F x = true :=
          fun x hx => List.mem_takeWhile_imp hx
        have hinter : ∀ x ∈ (cs.dropWhile (charIn 0x30 0x3F)).takeWhile (charIn 0x20 0x2F),
            charIn 0x20 0x2F x = true := fun x hx => List.mem_takeWhile_imp hx
        have hcs : cs = cs.takeWhile (charIn 0x30 0x3F) ++
            ((cs.dropWhile (charIn 0x30 0x3F)).takeWhile (charIn 0x20 0x2F) ++
              (cs.dropWhile (charIn 0x30 0x3F)).dropWhile (charIn 0x20 0x2F)) := by
          rw [List.takeWhile_append_dropWhile, List.takeWhile_append_dropWhile]
        generalize cs.takeWhile (charIn 0x30 0x3F) = ps at hcs hparams
        generalize (cs.dropWhile (charIn 0x30 0x3F)).takeWhile (charIn 0x20 0x2F) = is at hcs hinter
        split at h
        · rename_i f rest hend
          rw [hend] at hcs
          split at h
          · rename_i hf
            cases h
            refine ⟨c :: (ps ++ (is ++ [f])), by rw [hcs]; simp, ?_, fun v => ?_⟩
            · intro x hx
              rw [List.mem_cons, List.mem_append, List.mem_append, List.mem_singleton] at hx
              rcases hx with rfl | hx | hx | rfl
              · rw [hbracket]
                decide
              · exact charIn_mono (hparams x hx) (by omega) (by omega)
              · exact charIn_mono (hinter x hx) (by omega) (by omega)
              · exact charIn_mono hf (by omega) (by omega)
            · have htext : c :: (ps ++ (is ++ [f])) ++ v = c :: (ps ++ (is ++ f :: v)) := by simp
              rw [htext, escapeTail, if_neg hc, if_pos hbracket,
                dropWhile_control hparams hinter hf]
              exact if_pos hf
          · cases h
        · cases h
      · cases h

theorem escapeTail_append (h : escapeTail u = some r) (v : List Char) :
    escapeTail (u ++ v) = some (r ++ v) := by
  obtain ⟨m, rfl, -, hm⟩ := escapeTail_some h
  rw [List.append_assoc, hm]

theorem escapeTail_completed (hu : escapeTail u = none) (h : escapeTail (u ++ v) = some r) :
    ∃ m, m ≠ [] ∧ v = m ++ r ∧ ∀ c ∈ m, charIn 0x20 0x7E c = true := by
  obtain ⟨m, hm, hprintable, hall⟩ := escapeTail_some h
  rcases List.append_eq_append_iff.1 hm with ⟨k, rfl, hv⟩ | ⟨k, rfl, hr⟩
  · refine ⟨k, ?_, hv, fun c hc => hprintable c (List.mem_append_right _ hc)⟩
    rintro rfl
    have hnow := hall []
    rw [List.append_nil, List.append_nil, hu] at hnow
    cases hnow
  · rw [hall] at hu
    cases hu

theorem escapeTail_stopped (hu : escapeTail u = none) (hc : charIn 0x20 0x7E c = false)
    (v : List Char) : escapeTail (u ++ c :: v) = none := by
  rw [Option.eq_none_iff_forall_ne_some]
  intro r h
  obtain ⟨m, hne, hm, hprintable⟩ := escapeTail_completed hu h
  obtain ⟨d, m, rfl⟩ := List.exists_cons_of_ne_nil hne
  have hcd := (List.cons.inj hm).1
  rw [hcd, hprintable d (List.mem_cons_self ..)] at hc
  cases hc

theorem stripEscapesFrom_fuel {n m : Nat} (hn : u.length ≤ n) (hm : u.length ≤ m) :
    stripEscapesFrom n u = stripEscapesFrom m u := by
  induction n generalizing u m with
  | zero =>
    rw [List.length_eq_zero_iff.1 (Nat.le_zero.1 hn)]
    cases m with
    | zero => rfl
    | succ m => rfl
  | succ n ih =>
    cases u with
    | nil =>
      cases m with
      | zero => rfl
      | succ m => rfl
    | cons c u =>
      rw [List.length_cons] at hn hm
      obtain ⟨m, rfl⟩ : ∃ k, m = k + 1 := ⟨m - 1, by omega⟩
      rw [stripEscapesFrom, stripEscapesFrom, ih (m := m) (by omega) (by omega)]
      cases h : escapeTail u with
      | none => rfl
      | some r =>
        obtain ⟨k, hk, -, -⟩ := escapeTail_some h
        have hlen := congrArg List.length hk
        rw [List.length_append] at hlen
        dsimp only
        rw [ih (m := m) (by omega) (by omega)]

theorem stripEscapes_cons (hc : c ≠ escapeChar) (u : List Char) :
    stripEscapes (c :: u) = c :: stripEscapes u := if_neg hc

theorem stripEscapes_sequence (h : escapeTail u = some r) :
    stripEscapes (escapeChar :: u) = stripEscapes r := by
  obtain ⟨m, hm, -, -⟩ := escapeTail_some h
  have hlen := congrArg List.length hm
  rw [List.length_append] at hlen
  rw [stripEscapes, List.length_cons, stripEscapesFrom, escapeChar, if_pos rfl, h]
  exact stripEscapesFrom_fuel (by omega) (Nat.le_refl _)

theorem stripEscapes_escape (h : escapeTail u = none) :
    stripEscapes (escapeChar :: u) = escapeChar :: stripEscapes u := by
  rw [stripEscapes, List.length_cons, stripEscapesFrom, escapeChar, if_pos rfl, h]
  rfl

theorem stripEscapes_append (ha : escapeChar ∉ a) (b : List Char) :
    stripEscapes (a ++ b) = a ++ stripEscapes b := by
  induction a with
  | nil => rfl
  | cons c a ih =>
    rw [List.mem_cons, not_or] at ha
    rw [List.cons_append, stripEscapes_cons (Ne.symm ha.1), ih ha.2, List.cons_append]

theorem stripEscapes_of_notMem (ha : escapeChar ∉ a) : stripEscapes a = a := by
  have h := stripEscapes_append ha []
  rwa [List.append_nil, show stripEscapes [] = [] from rfl, List.append_nil] at h

theorem stripEscapes_part (hc : charIn 0x20 0x7E c = false) (a b : List Char) :
    stripEscapes (a ++ c :: b) = stripEscapes a ++ stripEscapes (c :: b) := by
  induction hn : a.length using Nat.strong_induction_on generalizing a with
  | h n ih =>
    cases a with
    | nil => rfl
    | cons d a =>
      rw [List.length_cons] at hn
      by_cases hd : d = escapeChar
      · subst d
        cases ha : escapeTail a with
        | some r =>
          obtain ⟨m, hm, -, -⟩ := escapeTail_some ha
          have hlen := congrArg List.length hm
          rw [List.length_append] at hlen
          rw [List.cons_append, stripEscapes_sequence (escapeTail_append ha _),
            stripEscapes_sequence ha, ih r.length (by omega) r rfl]
        | none =>
          rw [List.cons_append, stripEscapes_escape (escapeTail_stopped ha hc b),
            stripEscapes_escape ha, ih a.length (by omega) a rfl, List.cons_append]
      · rw [List.cons_append, stripEscapes_cons hd, stripEscapes_cons hd,
          ih a.length (by omega) a rfl, List.cons_append]

end

section
variable {p : Char → Bool} (hp : ∀ c, isPySpace c = true → p c = false)
include hp

theorem countP_blank {l : List Char} (hl : ∀ c ∈ l, isPySpace c = true) : l.countP p = 0 := by
  rw [List.countP_eq_zero]
  intro c hc
  rw [hp c (hl c hc)]
  decide

theorem countP_dropWhile (l : List Char) : (l.dropWhile isPySpace).countP p = l.countP p := by
  have hblank : (l.takeWhile isPySpace).countP p = 0 :=
    countP_blank hp fun c hc => List.mem_takeWhile_imp hc
  have hsplit := congrArg (List.countP p)
    (List.takeWhile_append_dropWhile (p := isPySpace) (l := l))
  rwa [List.countP_append, hblank, Nat.zero_add] at hsplit

theorem countP_pyStrip (l : List Char) : (pyStrip l).countP p = l.countP p := by
  rw [pyStrip_eq, List.rdropWhile, List.countP_reverse, countP_dropWhile hp, List.countP_reverse,
    countP_dropWhile hp]

end

def visible (s : List Char) : Nat := s.countP fun c => !isPySpace c

section
variable {s : List Char}

@[simp] theorem visible_append (s t : List Char) : visible (s ++ t) = visible s + visible t :=
  List.countP_append

theorem visible_cons (c : Char) (s : List Char) :
    visible (c :: s) = visible [c] + visible s := visible_append [c] s

theorem visible_le_one (c : Char) : visible [c] ≤ 1 := List.countP_le_length

theorem visible_escape : visible [escapeChar] = 1 := by decide

theorem visible_replacement (n : Nat) : visible (List.replicate n replacementChar) = n := by
  rw [visible, List.countP_replicate, if_pos (by decide)]

theorem visible_blank (h : ∀ c ∈ s, isPySpace c = true) : visible s = 0 :=
  countP_blank (fun c hc => by rw [hc]; rfl) h

theorem visible_pyStrip (s : List Char) : visible (pyStrip s) = visible s :=
  countP_pyStrip (fun c hc => by rw [hc]; rfl) s

end

section
variable {a b : Bytes}

theorem decodeReplace_cut (h : ¬ CutsCharacter a b) :
    decodeReplace (a ++ b) = decodeReplace a ++ decodeReplace b := by
  obtain ⟨l, hl⟩ := decodeFrom_pendingAfter none a
  have ha := hl []
  rw [List.append_nil] at ha
  rw [decodeReplace, decodeReplace, decodeReplace, hl, ha, List.append_assoc]
  cases hst : pendingAfter none a with
  | none => rfl
  | some p =>
    cases b with
    | nil => rfl
    | cons x b =>
      have hx : ¬ (p.low ≤ x.toNat ∧ x.toNat ≤ p.high) := fun hx => h ⟨p, hst, x, rfl, hx⟩
      rw [decodeFrom_offend hx]
      rfl

theorem stripEscapes_cut {s t : List Char} (h : ∀ before held, s = before ++ escapeChar :: held →
    escapeChar ∉ held → escapeTail held = none → escapeTail (held ++ t) = none) :
    stripEscapes (s ++ t) = stripEscapes s ++ stripEscapes t := by
  induction hn : s.length using Nat.strong_induction_on generalizing s with
  | h n ih =>
    cases s with
    | nil => rfl
    | cons c s =>
      rw [List.length_cons] at hn
      by_cases hc : c = escapeChar
      · subst c
        cases hs : escapeTail s with
        | some r =>
          obtain ⟨m, rfl, -, -⟩ := escapeTail_some hs
          rw [List.length_append] at hn
          have hr : stripEscapes (r ++ t) = stripEscapes r ++ stripEscapes t := by
            apply ih r.length (by omega) _ rfl
            intro before held hsplit
            apply h (escapeChar :: (m ++ before)) held
            rw [hsplit, List.cons_append, List.append_assoc]
          rw [List.cons_append, stripEscapes_sequence (escapeTail_append hs t),
            stripEscapes_sequence hs, hr]
        | none =>
          have hst : escapeTail (s ++ t) = none := by
            by_cases hmem : escapeChar ∈ s
            · obtain ⟨u, v, rfl⟩ := List.append_of_mem hmem
              have hu : escapeTail u = none := by
                cases hu : escapeTail u with
                | none => rfl
                | some r =>
                  rw [escapeTail_append hu] at hs
                  cases hs
              rw [List.append_assoc, List.cons_append]
              exact escapeTail_stopped hu (by decide) _
            · exact h [] s rfl hmem hs
          have hrest : stripEscapes (s ++ t) = stripEscapes s ++ stripEscapes t := by
            apply ih s.length (by omega) _ rfl
            intro before held hsplit
            apply h (escapeChar :: before) held
            rw [hsplit, List.cons_append]
          rw [List.cons_append, stripEscapes_escape hst, stripEscapes_escape hs, hrest,
            List.cons_append]
      · have hrest : stripEscapes (s ++ t) = stripEscapes s ++ stripEscapes t := by
          apply ih s.length (by omega) _ rfl
          intro before held hsplit
          apply h (c :: before) held
          rw [hsplit, List.cons_append]
        rw [List.cons_append, stripEscapes_cons hc, stripEscapes_cons hc, hrest, List.cons_append]

theorem ingest_append (hchar : ¬ CutsCharacter a b) (hescape : ¬ CutsEscape a b) :
    ingest (a ++ b) = ingest a ++ ingest b := by
  rw [ingest, decodeReplace_cut hchar]
  apply stripEscapes_cut
  intro before held hsplit hheld hnone
  cases htail : escapeTail (held ++ decodeReplace b) with
  | none => rfl
  | some r => exact (hescape ⟨before, held, hsplit, hheld, hnone, by rw [htail]; rfl⟩).elim

/-- A character that is cut is decoded to more characters than one, none of them printable ASCII. -/
theorem decodeReplace_cutsCharacter (h : CutsCharacter a b) : ∃ l c n t,
    decodeReplace (a ++ b) = l ++ c :: t ∧ decodeReplace a = l ++ [replacementChar] ∧
      decodeReplace b = List.replicate n replacementChar ++ t ∧ Foreign c ∧ 0 < n := by
  obtain ⟨p, hp, x, hx, hfit⟩ := h
  obtain ⟨l, hl⟩ := decodeFrom_pendingAfter none a
  have hnone : ∀ q ∈ (none : Option Utf8Pending), q.Wide := by simp
  have hwide : p.Wide := pendingAfter_wide hnone hp
  obtain ⟨c, n, t, hc, ht, hforeign, hn⟩ := decodeFrom_resumed hwide b
  have ha := hl []
  have hab := hl b
  rw [hp] at ha hab
  rw [List.append_nil] at ha
  refine ⟨l, c, n, t, ?_, ha, ht, hforeign, hn x hx hfit⟩
  rw [decodeReplace, hab, hc]

theorem visible_cutsCharacter (h : CutsCharacter a b) :
    visible (ingest (a ++ b)) < visible (ingest a) + visible (ingest b) := by
  obtain ⟨l, c, n, t, hab, ha, hb, ⟨hforeign, hescape⟩, hpos⟩ := decodeReplace_cutsCharacter h
  have hone : visible [c] ≤ 1 := visible_le_one c
  have hwhole : ingest (a ++ b) = stripEscapes l ++ c :: stripEscapes t := by
    rw [ingest, hab, stripEscapes_part hforeign, stripEscapes_cons hescape]
  have hfirst : ingest a = stripEscapes l ++ [replacementChar] := by
    rw [ingest, ha]
    exact stripEscapes_part (by decide) l []
  have hsecond : ingest b = List.replicate n replacementChar ++ stripEscapes t := by
    rw [ingest, hb]
    apply stripEscapes_append
    intro hmem
    exact absurd (List.eq_of_mem_replicate hmem) (by decide)
  rw [hwhole, hfirst, hsecond, visible_append, visible_append, visible_append, visible_cons,
    visible_replacement, show visible [replacementChar] = 1 from by decide]
  omega

theorem visible_cutsEscape (hchar : ¬ CutsCharacter a b) (h : CutsEscape a b) :
    visible (ingest (a ++ b)) < visible (ingest a) + visible (ingest b) := by
  obtain ⟨before, held, ha, hheld, hnone, hsome⟩ := h
  obtain ⟨r, hr⟩ := Option.isSome_iff_exists.1 hsome
  obtain ⟨m, -, hb, hprintable⟩ := escapeTail_completed hnone hr
  have hm : escapeChar ∉ m := by
    intro hmem
    exact absurd (hprintable _ hmem) (by decide)
  have hwhole : ingest (a ++ b) = stripEscapes before ++ stripEscapes r := by
    rw [ingest, decodeReplace_cut hchar, ha, List.append_assoc, List.cons_append,
      stripEscapes_part (by decide), stripEscapes_sequence hr]
  have hfirst : ingest a = stripEscapes before ++ escapeChar :: held := by
    rw [ingest, ha, stripEscapes_part (by decide), stripEscapes_escape hnone,
      stripEscapes_of_notMem hheld]
  have hsecond : ingest b = m ++ stripEscapes r := by
    rw [ingest, hb, stripEscapes_append hm]
  rw [hwhole, hfirst, hsecond, visible_append, visible_append, visible_append, visible_cons,
    visible_escape]
  omega

theorem visible_ingest_lt (h : CutsCharacter a b ∨ CutsEscape a b) :
    visible (ingest (a ++ b)) < visible (ingest a) + visible (ingest b) := by
  by_cases hchar : CutsCharacter a b
  · exact visible_cutsCharacter hchar
  · exact visible_cutsEscape hchar (h.resolve_left hchar)

theorem visible_ingest_le (a b : Bytes) :
    visible (ingest (a ++ b)) ≤ visible (ingest a) + visible (ingest b) := by
  by_cases h : CutsCharacter a b ∨ CutsEscape a b
  · exact Nat.le_of_lt (visible_ingest_lt h)
  · rw [not_or] at h
    rw [ingest_append h.1 h.2, visible_append]

end

section
variable {chunks : List Bytes} {c : Bytes}

/-- The borders of one chunk more: those there were and the one before it. -/
theorem border_concat {P : Bytes → Bytes → Prop} :
    (∀ before chunk after, chunks ++ [c] = before ++ chunk :: after → P before.flatten chunk) ↔
      (∀ before chunk after, chunks = before ++ chunk :: after → P before.flatten chunk) ∧
        P chunks.flatten c := by
  constructor
  · intro h
    refine ⟨?_, h chunks c [] rfl⟩
    intro before chunk after hsplit
    apply h before chunk (after ++ [c])
    rw [hsplit, List.append_assoc, List.cons_append]
  · intro h before chunk after hsplit
    rcases List.eq_nil_or_concat after with rfl | ⟨after, d, rfl⟩
    · obtain ⟨hbefore, hchunk⟩ := List.append_inj' hsplit rfl
      cases hchunk
      rw [← hbefore]
      exact h.2
    · rw [List.concat_eq_append, ← List.cons_append, ← List.append_assoc] at hsplit
      exact h.1 before chunk after (List.append_inj' hsplit rfl).1

theorem cleanlyCut_concat : CleanlyCut (chunks ++ [c]) ↔
    CleanlyCut chunks ∧ ¬ CutsCharacter chunks.flatten c ∧ ¬ CutsEscape chunks.flatten c :=
  border_concat (P := fun a b => ¬ CutsCharacter a b ∧ ¬ CutsEscape a b)

theorem liveBuffer_concat : liveBuffer (chunks ++ [c]) = liveBuffer chunks ++ ingest c := by
  rw [liveBuffer, List.flatMap_append, List.flatMap_singleton]
  rfl

theorem flatten_concat : (chunks ++ [c]).flatten = chunks.flatten ++ c := by
  rw [List.flatten_append, List.flatten_singleton]

theorem ingest_flatten (h : CleanlyCut chunks) : ingest chunks.flatten = liveBuffer chunks := by
  induction chunks using List.reverseRecOn with
  | nil => rfl
  | append_singleton chunks c ih =>
    obtain ⟨hchunks, hchar, hescape⟩ := cleanlyCut_concat.1 h
    rw [flatten_concat, liveBuffer_concat, ingest_append hchar hescape, ih hchunks]

theorem visible_flatten_le (chunks : List Bytes) :
    visible (ingest chunks.flatten) ≤ visible (liveBuffer chunks) := by
  induction chunks using List.reverseRecOn with
  | nil => exact Nat.le_refl _
  | append_singleton chunks c ih =>
    have hle := visible_ingest_le chunks.flatten c
    rw [flatten_concat, liveBuffer_concat, visible_append]
    omega

theorem visible_flatten_lt (h : ¬ CleanlyCut chunks) :
    visible (ingest chunks.flatten) < visible (liveBuffer chunks) := by
  induction chunks using List.reverseRecOn with
  | nil => exact (h fun before chunk after hsplit => by simp at hsplit).elim
  | append_singleton chunks c ih =>
    rw [flatten_concat, liveBuffer_concat, visible_append]
    by_cases hc : CutsCharacter chunks.flatten c ∨ CutsEscape chunks.flatten c
    · have hlt := visible_ingest_lt hc
      have hle := visible_flatten_le chunks
      omega
    · rw [not_or] at hc
      have hchunks : ¬ CleanlyCut chunks := fun hchunks => h (cleanlyCut_concat.2 ⟨hchunks, hc⟩)
      have hlt := ih hchunks
      rw [ingest_append hc.1 hc.2, visible_append]
      omega

end

theorem visible_dropCr (l : List Char) : visible (dropCr l) = visible l := by
  rw [dropCr]
  split
  · rename_i h
    obtain ⟨k, rfl⟩ := List.getLast?_eq_some_iff.1 h
    rw [List.dropLast_concat, visible_append, show visible ['\r'] = 0 from by decide, Nat.add_zero]
  · rfl

theorem visible_yieldedLines (ls : List (List Char)) :
    ((yieldedLines ls).map visible).sum = (ls.map visible).sum := by
  induction ls with
  | nil => rfl
  | cons l ls ih =>
    have hone : ((yieldedLines [l]).map visible).sum = visible l := by
      rw [← visible_pyStrip, yieldedLines, List.map_singleton, List.filter_singleton]
      cases pyStrip l with
      | nil => rfl
      | cons c k => exact Nat.add_zero _
    rw [← List.singleton_append, yieldedLines_append, List.map_append, List.sum_append, ih, hone,
      List.map_append, List.sum_append, List.map_singleton, List.sum_singleton]

theorem visible_lines (ls : List (List Char)) :
    visible (ls.flatMap (· ++ ['\n'])) = (ls.map visible).sum := by
  induction ls with
  | nil => rfl
  | cons l ls ih =>
    rw [List.flatMap_cons, visible_append, visible_append, ih, List.map_cons, List.sum_cons]
    rfl

theorem visible_extractLines (p : UartStreamParser) :
    (p.extractLines.1.map visible).sum + visible p.extractLines.2.buffer = visible p.buffer := by
  have hdrop : (finished '\n' p.buffer).map (visible ∘ dropCr) =
      (finished '\n' p.buffer).map visible :=
    List.map_congr_left fun l _ => visible_dropCr l
  rw [UartStreamParser.extractLines_eq]
  dsimp only
  rw [visible_yieldedLines, List.map_map, hdrop, ← visible_lines, ← visible_append, unsplit]

/-- The chunks make no difference exactly when they cut no character and no escape sequence. -/
theorem extractLines_fragmented (chunks : List Bytes) :
    (ingestAll chunks).extractLines = (ingestAll [chunks.flatten]).extractLines ↔
      CleanlyCut chunks := by
  have hchunks : ingestAll chunks = ⟨liveBuffer chunks⟩ :=
    congrArg UartStreamParser.mk (buffer_ingestAll {} chunks)
  have hwhole : ingestAll [chunks.flatten] = ⟨ingest chunks.flatten⟩ := by
    have h := congrArg UartStreamParser.mk (buffer_ingestAll {} [chunks.flatten])
    rw [liveBuffer, List.flatMap_singleton] at h
    exact h
  rw [hchunks, hwhole]
  constructor
  · intro h
    by_contra hcut
    have hlt := visible_flatten_lt hcut
    have hsame := visible_extractLines ⟨liveBuffer chunks⟩
    rw [h, visible_extractLines] at hsame
    exact absurd hsame (Nat.ne_of_lt hlt)
  · intro h
    rw [ingest_flatten h]

/-- The two bytes of 'é' come in two chunks. -/
theorem extractLines_cut : let chunks : List Bytes := [[0xC3], [0xA9, 0x0A]]
    (ingestAll chunks).extractLines ≠ (ingestAll [chunks.flatten]).extractLines := by decide

end MesCore

import MesCore.Lines
import MesCore.Text

namespace MesCore
set_option autoImplicit true

/-- The local variables of `CobsFramer.encode`: the bytes so far, the code of the open block, and
where that code will be written. -/
structure CobsEncoder where
  encoded : Bytes := [0x00]
  code : Nat := 1
  codeIdx : Nat := 0

namespace CobsFramer

/-- `encoded[code_idx] = code`. -/
def writeCode (e : CobsEncoder) : Bytes := e.encoded.set e.codeIdx (UInt8.ofNat e.code)

def nextBlock (e : CobsEncoder) : CobsEncoder where
  encoded := writeCode e ++ [0x00]
  code := 1
  codeIdx := e.encoded.length

def encodeByte (e : CobsEncoder) (b : UInt8) : CobsEncoder :=
  if b = 0 then nextBlock e
  else
    let e := { e with encoded := e.encoded ++ [b], code := e.code + 1 }
    if e.code = 255 then nextBlock e else e

def encode (data : Bytes) : Bytes := writeCode (data.foldl encodeByte {}) ++ [0x00]

/-- The loop of `CobsFramer.decode` over what is left of the data. -/
def decodeFrom : Nat → Bytes → Bytes
  | 0, _ => []
  | _ + 1, [] => []
  | fuel + 1, code :: rest =>
    if code = 0 then []
    else
      let n := code.toNat - 1
      rest.take n ++ (if code.toNat < 255 ∧ n < rest.length then [0x00] else []) ++
        decodeFrom fuel (rest.drop n)

def decode (data : Bytes) : Bytes := decodeFrom data.length data

/-- What `encode` puts before the delimiter, with the open block holding `block`. -/
def stuff (block : Bytes) : Bytes → Bytes
  | [] => UInt8.ofNat (block.length + 1) :: block
  | b :: data =>
    if b = 0 then UInt8.ofNat (block.length + 1) :: (block ++ stuff [] data)
    else if block.length + 2 = 255 then 255 :: (block ++ b :: stuff [] data)
    else stuff (block ++ [b]) data

/-- Every block is as long as its code says. -/
inductive Untruncated : Bytes → Prop
  | nil : Untruncated []
  | block (code : UInt8) (data rest : Bytes) : data.length + 1 = code.toNat → Untruncated rest →
      Untruncated (code :: (data ++ rest))

section
variable {block data : Bytes}

theorem decodeFrom_congr {m n : Nat} (hm : data.length ≤ m) (hn : data.length ≤ n) :
    decodeFrom m data = decodeFrom n data := by
  induction m generalizing n data with
  | zero =>
    cases List.length_eq_zero_iff.1 (Nat.le_zero.1 hm)
    cases n <;> rfl
  | succ m ih =>
    cases data with
    | nil => cases n <;> rfl
    | cons code rest =>
      cases n with
      | zero => cases hn
      | succ n =>
        have hdrop : (rest.drop (code.toNat - 1)).length ≤ rest.length := by
          rw [List.length_drop]
          exact Nat.sub_le ..
        have hstep := ih (hdrop.trans (Nat.le_of_succ_le_succ hm))
          (hdrop.trans (Nat.le_of_succ_le_succ hn))
        rw [decodeFrom, decodeFrom]
        dsimp only
        rw [hstep]

theorem decode_block {code : UInt8} (hcode : data.length + 1 = code.toNat) (rest : Bytes) :
    decode (code :: (data ++ rest)) =
      data ++ (if code.toNat < 255 ∧ rest ≠ [] then [0x00] else []) ++ decode rest := by
  have hne : code ≠ 0 := by
    intro h
    rw [h] at hcode
    cases hcode
  have hn : code.toNat - 1 = data.length := by omega
  have hrest : data.length < (data ++ rest).length ↔ rest ≠ [] := by
    rw [List.length_append, ← List.length_pos_iff]
    omega
  rw [decode, List.length_cons, decodeFrom, if_neg hne, hn]
  dsimp only
  rw [List.take_left, List.drop_left, decode,
    decodeFrom_congr (List.length_append ▸ Nat.le_add_left ..) (Nat.le_refl _)]
  simp only [hrest]

theorem untruncated_cons_iff {code : UInt8} : Untruncated (code :: data) ↔
    code ≠ 0 ∧ code.toNat ≤ data.length + 1 ∧ Untruncated (data.drop (code.toNat - 1)) := by
  constructor
  · intro h
    cases h with
    | block _ block rest hcode hrest =>
      have hn : code.toNat - 1 = block.length := by omega
      rw [hn, List.drop_left, List.length_append]
      refine ⟨?_, by omega, hrest⟩
      intro h
      rw [h] at hcode
      cases hcode
  · rintro ⟨hne, hlen, hrest⟩
    have hpos : code.toNat ≠ 0 := fun h => hne (UInt8.toNat_inj.1 h)
    rw [← List.take_append_drop (code.toNat - 1) data]
    exact .block code _ _ (by rw [List.length_take]; omega) hrest

theorem stuff_ne_nil (block data : Bytes) : stuff block data ≠ [] := by
  induction data generalizing block with
  | nil => exact List.cons_ne_nil _ _
  | cons b data ih =>
    rw [stuff]
    split
    · exact List.cons_ne_nil _ _
    · split
      · exact List.cons_ne_nil _ _
      · exact ih _

theorem toNat_code (h : block.length < 254) :
    (UInt8.ofNat (block.length + 1)).toNat = block.length + 1 := by
  apply UInt8.toNat_ofNat_of_lt'
  change block.length + 1 < 256
  omega

theorem length_full (b : UInt8) (h : block.length + 2 = 255) :
    (block ++ [b]).length + 1 = (255 : UInt8).toNat := by
  rw [List.length_append]
  exact h

theorem decode_stuff (h : block.length < 254) : decode (stuff block data) = block ++ data := by
  induction data generalizing block with
  | nil =>
    have hblock := decode_block (toNat_code h).symm []
    rw [List.append_nil, if_neg fun hne => hne.2 rfl, List.append_nil] at hblock
    rw [stuff, hblock]
    rfl
  | cons b data ih =>
    rw [stuff]
    split
    · rename_i hb
      rw [decode_block (toNat_code h).symm, toNat_code h, ih (by decide), hb,
        if_pos ⟨by omega, stuff_ne_nil _ _⟩, List.nil_append, List.append_assoc]
      rfl
    · split
      · rename_i hfull
        have hblock := decode_block (length_full b hfull) (stuff [] data)
        rw [List.append_assoc, List.singleton_append] at hblock
        rw [hblock, if_neg fun hlt => absurd hlt.1 (by decide), ih (by decide), List.append_nil,
          List.append_assoc]
        rfl
      · rename_i hroom
        rw [ih (by rw [List.length_append, List.length_singleton]; omega), List.append_assoc]
        rfl

theorem zero_notMem_stuff (hblock : 0x00 ∉ block) (h : block.length < 254) :
    0x00 ∉ stuff block data := by
  have hcode : (0x00 : UInt8) ≠ UInt8.ofNat (block.length + 1) := by
    intro heq
    have hnat := toNat_code h
    rw [← heq] at hnat
    cases hnat
  induction data generalizing block with
  | nil =>
    rw [stuff, List.mem_cons, not_or]
    exact ⟨hcode, hblock⟩
  | cons b data ih =>
    have hnil := ih List.not_mem_nil (by decide) (by decide)
    rw [stuff]
    split
    · rw [List.mem_cons, List.mem_append, not_or, not_or]
      exact ⟨hcode, hblock, hnil⟩
    · rename_i hb
      split
      · rw [List.mem_cons, List.mem_append, List.mem_cons, not_or, not_or, not_or]
        exact ⟨by decide, hblock, fun heq => hb heq.symm, hnil⟩
      · rename_i hroom
        have hlen : (block ++ [b]).length = block.length + 1 := List.length_append
        apply ih
        · rw [List.mem_append, List.mem_singleton, not_or]
          exact ⟨hblock, fun heq => hb heq.symm⟩
        · omega
        · intro heq
          have hnat : (UInt8.ofNat ((block ++ [b]).length + 1)).toNat = _ := toNat_code (by omega)
          rw [← heq] at hnat
          cases hnat

theorem untruncated_stuff (h : block.length < 254) : Untruncated (stuff block data) := by
  induction data generalizing block with
  | nil =>
    have hblock := Untruncated.block _ block [] (toNat_code h).symm .nil
    rwa [List.append_nil] at hblock
  | cons b data ih =>
    have hnil : Untruncated (stuff [] data) := ih (Nat.zero_lt_succ _)
    rw [stuff]
    split
    · exact .block _ block _ (toNat_code h).symm hnil
    · split
      · rename_i hfull
        have hblock := Untruncated.block 255 (block ++ [b]) _ (length_full b hfull) hnil
        rwa [List.append_assoc, List.singleton_append] at hblock
      · rename_i hroom
        apply ih
        rw [List.length_append, List.length_singleton]
        omega

theorem writeCode_open (closed block : Bytes) (code : Nat) :
    writeCode ⟨closed ++ 0x00 :: block, code, closed.length⟩ =
      closed ++ UInt8.ofNat code :: block := by
  rw [writeCode, List.set_append_right _ _ (Nat.le_refl _), Nat.sub_self, List.set_cons_zero]

theorem nextBlock_open (closed block : Bytes) (code : Nat) :
    nextBlock ⟨closed ++ 0x00 :: block, code, closed.length⟩ =
      ⟨(closed ++ UInt8.ofNat code :: block) ++ 0x00 :: [], 1,
        (closed ++ UInt8.ofNat code :: block).length⟩ := by
  rw [nextBlock, writeCode_open]
  simp only [List.length_append, List.length_cons]

/-- The encoder's variables hold closed blocks, a byte kept free for the code of the open block,
and that block. -/
theorem writeCode_foldl (closed block data : Bytes) :
    writeCode (data.foldl encodeByte
      ⟨closed ++ 0x00 :: block, block.length + 1, closed.length⟩) = closed ++ stuff block data := by
  induction data generalizing closed block with
  | nil => rw [List.foldl_nil, writeCode_open, stuff]
  | cons b data ih =>
    rw [List.foldl_cons, encodeByte, stuff]
    split
    · rw [nextBlock_open]
      exact (ih _ []).trans (List.append_assoc ..)
    · dsimp only
      rw [List.append_assoc, List.cons_append]
      split
      · rename_i hfull
        rw [nextBlock_open, hfull]
        refine (ih _ []).trans ?_
        rw [List.append_assoc, List.cons_append, List.append_assoc]
        rfl
      · have hnext := ih closed (block ++ [b])
        rwa [List.length_append] at hnext

theorem encode_eq (data : Bytes) : encode data = stuff [] data ++ [0x00] := by
  have h : _ = stuff [] data := writeCode_foldl [] [] data
  rw [encode]
  exact congrArg (· ++ [0x00]) h

end

/-- Streams of frames round-trip: cut at the delimiters, every piece decodes to what was encoded,
and each encoding holds one delimiter, at its end. -/
theorem frames_round_trip (ps : List Bytes) :
    (finished 0x00 (ps.flatMap encode)).map decode = ps ∧
      unfinished 0x00 (ps.flatMap encode) = [] ∧
        ∀ p ∈ ps, ∃ body, encode p = body ++ [0x00] ∧ 0x00 ∉ body := by
  have hbody (p : Bytes) : 0x00 ∉ stuff [] p :=
    zero_notMem_stuff List.not_mem_nil (Nat.zero_lt_succ _)
  have hframes : ps.flatMap encode = (ps.map (stuff [])).flatMap (· ++ [0x00]) := by
    rw [List.flatMap_map]
    exact List.flatMap_congr fun p _ => encode_eq p
  have hsplit := splitOn_lines (List.forall_mem_map.2 fun p (_ : p ∈ ps) => hbody p) []
  rw [List.append_nil, ← hframes, List.splitOn_nil] at hsplit
  refine ⟨?_, unfinished_of_splitOn _ _ hsplit, fun p _ => ⟨_, encode_eq p, hbody p⟩⟩
  rw [finished_of_splitOn _ _ hsplit, List.map_map, List.map_congr_left, List.map_id]
  intro p _
  exact decode_stuff (by decide)

end CobsFramer
end MesCore

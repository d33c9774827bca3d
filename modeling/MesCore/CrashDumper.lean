import MesCore.Fragmentation

namespace MesCore
set_option autoImplicit true

def decodeChunks (chunks : List Bytes) : List Char := chunks.flatMap decodeReplace

/-- No chunk continues a character that the chunks before it have begun. -/
def WholeCharacters (chunks : List Bytes) : Prop :=
  ∀ before chunk after, chunks = before ++ chunk :: after → ¬ CutsCharacter before.flatten chunk

section
variable {a b : Bytes} {chunks : List Bytes} {chunk : Bytes}

theorem visible_decode_lt (h : CutsCharacter a b) :
    visible (decodeReplace (a ++ b)) < visible (decodeReplace a) + visible (decodeReplace b) := by
  obtain ⟨l, c, n, t, hab, ha, hb, -, hpos⟩ := decodeReplace_cutsCharacter h
  have hone : visible [c] ≤ 1 := visible_le_one c
  rw [hab, ha, hb, visible_append, visible_append, visible_append, visible_cons,
    visible_replacement, show visible [replacementChar] = 1 from by decide]
  omega

theorem visible_decode_le (a b : Bytes) :
    visible (decodeReplace (a ++ b)) ≤ visible (decodeReplace a) + visible (decodeReplace b) := by
  by_cases h : CutsCharacter a b
  · exact Nat.le_of_lt (visible_decode_lt h)
  · rw [decodeReplace_cut h, visible_append]

theorem count_decode {x : Char} (hx : charIn 0x20 0x7E x = true) (a b : Bytes) :
    (decodeReplace (a ++ b)).count x = (decodeReplace a).count x + (decodeReplace b).count x := by
  by_cases h : CutsCharacter a b
  · obtain ⟨l, c, n, t, hab, ha, hb, ⟨hforeign, -⟩, -⟩ := decodeReplace_cutsCharacter h
    have hc : c ≠ x := by
      rintro rfl
      rw [hx] at hforeign
      cases hforeign
    have hr : replacementChar ≠ x := by
      rintro rfl
      exact absurd hx (by decide)
    rw [hab, ha, hb, List.count_append, List.count_append, List.count_append,
      List.count_cons_of_ne hc, List.count_cons_of_ne hr, List.count_nil, Nat.add_zero,
      List.count_eq_zero.2 fun hmem => hr (List.eq_of_mem_replicate hmem).symm, Nat.zero_add]
  · rw [decodeReplace_cut h, List.count_append]

theorem decodeChunks_append (s t : List Bytes) :
    decodeChunks (s ++ t) = decodeChunks s ++ decodeChunks t := List.flatMap_append

theorem decodeChunks_cons (chunk : Bytes) (chunks : List Bytes) :
    decodeChunks (chunk :: chunks) = decodeReplace chunk ++ decodeChunks chunks := List.flatMap_cons

theorem decodeChunks_concat :
    decodeChunks (chunks ++ [chunk]) = decodeChunks chunks ++ decodeReplace chunk := by
  rw [decodeChunks_append]
  exact congrArg _ (List.flatMap_singleton ..)

theorem wholeCharacters_concat : WholeCharacters (chunks ++ [chunk]) ↔
    WholeCharacters chunks ∧ ¬ CutsCharacter chunks.flatten chunk :=
  border_concat (P := fun a b => ¬ CutsCharacter a b)

theorem decodeChunks_whole (h : WholeCharacters chunks) :
    decodeChunks chunks = decodeReplace chunks.flatten := by
  induction chunks using List.reverseRecOn with
  | nil => rfl
  | append_singleton chunks chunk ih =>
    obtain ⟨hchunks, hchunk⟩ := wholeCharacters_concat.1 h
    rw [decodeChunks_concat, flatten_concat, decodeReplace_cut hchunk, ih hchunks]

theorem visible_decodeChunks_le (chunks : List Bytes) :
    visible (decodeReplace chunks.flatten) ≤ visible (decodeChunks chunks) := by
  induction chunks using List.reverseRecOn with
  | nil => exact Nat.le_refl _
  | append_singleton chunks chunk ih =>
    have hle := visible_decode_le chunks.flatten chunk
    rw [flatten_concat, decodeChunks_concat, visible_append]
    omega

theorem visible_decodeChunks_lt (h : ¬ WholeCharacters chunks) :
    visible (decodeReplace chunks.flatten) < visible (decodeChunks chunks) := by
  induction chunks using List.reverseRecOn with
  | nil => exact (h fun before chunk after hsplit => by simp at hsplit).elim
  | append_singleton chunks chunk ih =>
    rw [flatten_concat, decodeChunks_concat, visible_append]
    by_cases hchunk : CutsCharacter chunks.flatten chunk
    · have hlt := visible_decode_lt hchunk
      have hle := visible_decodeChunks_le chunks
      omega
    · have hlt := ih fun hchunks => h (wholeCharacters_concat.2 ⟨hchunks, hchunk⟩)
      have hle := visible_decode_le chunks.flatten chunk
      omega

theorem count_decodeChunks {x : Char} (hx : charIn 0x20 0x7E x = true) (chunks : List Bytes) :
    (decodeChunks chunks).count x = (decodeReplace chunks.flatten).count x := by
  induction chunks using List.reverseRecOn with
  | nil => rfl
  | append_singleton chunks chunk ih =>
    rw [decodeChunks_concat, flatten_concat, List.count_append, count_decode hx, ih]

/-- Whatever was cut before it, a last byte that is a character is decoded to it. -/
theorem decodeChunks_last {bs : Bytes} {c : Char} (hb : String.utf8EncodeChar c = [x])
    (h : chunks.flatten = bs ++ [x]) :
    ∃ before : List Bytes, before.flatten = bs ∧
      decodeChunks chunks = decodeChunks before ++ [c] := by
  induction chunks using List.reverseRecOn with
  | nil => exact (List.append_ne_nil_of_right_ne_nil bs (List.cons_ne_nil x []) h.symm).elim
  | append_singleton chunks chunk ih =>
    rw [flatten_concat] at h
    rcases List.eq_nil_or_concat chunk with rfl | ⟨chunk, y, rfl⟩
    · rw [List.append_nil] at h
      obtain ⟨before, hbefore, htext⟩ := ih h
      refine ⟨before, hbefore, ?_⟩
      rw [decodeChunks_concat, htext]
      exact List.append_nil _
    · rw [List.concat_eq_append, ← List.append_assoc] at h
      obtain ⟨hbs, hy⟩ := List.append_inj' h rfl
      cases hy
      refine ⟨chunks ++ [chunk], by rw [flatten_concat, hbs], ?_⟩
      have hlast := decodeReplace_append chunk [] c
      rw [hb] at hlast
      rw [decodeChunks_concat, decodeChunks_concat, List.concat_eq_append, List.append_assoc]
      exact congrArg _ hlast

theorem decodeReplace_append_encode {s : List Char} (h : s ≠ []) (a : Bytes) :
    decodeReplace (a ++ encodeUtf8 s) = decodeReplace a ++ s := by
  obtain ⟨c, s, rfl⟩ := List.exists_cons_of_ne_nil h
  rw [encodeUtf8_cons, decodeReplace_append, decodeReplace_encode]

theorem decodeReplace_ne_nil (h : chunk ≠ []) : decodeReplace chunk ≠ [] := by
  obtain ⟨x, bs, rfl⟩ := List.exists_cons_of_ne_nil h
  rw [decodeReplace]
  cases hx : utf8Lead x.toNat with
  | char c =>
    rw [decodeFrom, hx]
    exact List.cons_ne_nil _ _
  | pending p =>
    have hstart : startPending x = some p := by rw [startPending, hx]
    obtain ⟨c, n, t, hc, -⟩ := decodeFrom_resumed (startPending_wide hstart) bs
    rw [decodeFrom_lead hx, hc]
    exact List.cons_ne_nil _ _
  | invalid =>
    rw [decodeFrom, hx]
    exact List.cons_ne_nil _ _

end

namespace JtagCrashDumper

def prompt : List Char := "\n> ".toList

def beforePrompt : List Char → Option (List Char)
  | [] => none
  | c :: s =>
    match beforePrompt s with
    | some before => some (c :: before)
    | none => if prompt <+: c :: s then some [] else none

/-- `output.rsplit('\n> ', 1)[0]`. -/
def rsplitPrompt (output : List Char) : List Char := (beforePrompt output).getD output

def receive (output : List Char) : List Bytes → List Char
  -- The next `recv` times out, or the server has closed the connection.
  | [] => output
  | data :: rest =>
    let chunk := decodeReplace data
    if chunk = [] then output
    else if prompt <:+ output ++ chunk ∨ '\r' :: prompt <:+ output ++ chunk then output ++ chunk
    else receive (output ++ chunk) rest

def commandLine (cmd : List Char) : Bytes := encodeUtf8 (cmd ++ ['\n'])

/-- The output of a command, unless nothing greets the client: then the first `recv` times out. What
the server has to send from the command on comes in the chunks that `serve` gives. -/
def sendRpc (cmd : List Char) (greeted : Option Bytes) (serve : Bytes → List Bytes) :
    Option (List Char) :=
  greeted.map fun _ => pyStrip (rsplitPrompt (receive [] (serve (commandLine cmd))))

/-- How TCP may deliver a greeting and the reply to a command, which comes after the command. -/
structure Delivery (greeting : Bytes) (cmd body : List Char) where
  greeted : Option Bytes
  rest : Bytes
  serve : Bytes → List Bytes
  silent : greeted = none ↔ greeting = []
  first : ∀ data ∈ greeted, data ≠ [] ∧ data.length ≤ 1024
  greeting_eq : greeted.getD [] ++ rest = greeting
  reply : (serve (commandLine cmd)).flatten = rest ++ encodeUtf8 (body ++ prompt)
  segments : ∀ data ∈ serve (commandLine cmd), data ≠ [] ∧ data.length ≤ 4096

/-- No chunk but the last brings a prompt to the end of the text. -/
def Undivided (chunks : List Bytes) : Prop :=
  ∀ pre, pre <+: chunks → prompt <:+ decodeChunks pre → pre = chunks

section
variable {greeting : Bytes} {cmd body : List Char}

def Delivery.chunks (d : Delivery greeting cmd body) : List Bytes := d.serve (commandLine cmd)

/-- White space is all that the first `recv` leaves of the greeting, and the chunks cut neither a
character nor the text right behind a prompt. -/
structure Delivery.Clean (d : Delivery greeting cmd body) : Prop where
  greeted : greeting ≠ []
  blank : ∀ c ∈ decodeReplace d.rest, isPySpace c = true
  whole : WholeCharacters d.chunks
  undivided : Undivided d.chunks

/-- More than white space is left of the greeting, and yet the text up to the first prompt that ends
a chunk, one before the last, happens to say the same as the reply. -/
structure Delivery.Echoed (d : Delivery greeting cmd body) : Prop where
  greeted : greeting ≠ []
  left : ∃ c ∈ decodeReplace d.rest, isPySpace c = false
  same : ∃ pre said, pre <+: d.chunks ∧ pre ≠ d.chunks ∧ Undivided pre ∧
    decodeChunks pre = said ++ prompt ∧ pyStrip said = pyStrip body

end

section
variable {chunks pre post : List Bytes} {output : List Char}

theorem beforePrompt_append (s : List Char) : beforePrompt (s ++ prompt) = some s := by
  induction s with
  | nil => decide
  | cons c s ih => rw [List.cons_append, beforePrompt, ih]

theorem rsplitPrompt_append (s : List Char) : rsplitPrompt (s ++ prompt) = s := by
  rw [rsplitPrompt, beforePrompt_append]
  rfl

theorem receive_append (hout : ¬ prompt <:+ output) (hne : ∀ data ∈ pre, data ≠ [])
    (hend : prompt <:+ output ++ decodeChunks pre)
    (hfirst : ∀ p, p <+: pre → prompt <:+ output ++ decodeChunks p → p = pre) :
    receive output (pre ++ post) = output ++ decodeChunks pre := by
  induction pre generalizing output with
  | nil =>
    rw [decodeChunks, List.flatMap_nil, List.append_nil] at hend
    exact (hout hend).elim
  | cons data pre ih =>
    have hone : decodeChunks [data] = decodeReplace data := List.flatMap_singleton ..
    rw [List.cons_append, receive, if_neg (decodeReplace_ne_nil (hne data (List.mem_cons_self ..)))]
    split
    · rename_i hdone
      have hprompt : prompt <:+ output ++ decodeReplace data :=
        hdone.elim id fun hcr => (List.suffix_cons '\r' prompt).trans hcr
      have hlast := hfirst [data] (List.prefix_append [data] pre) (by rwa [hone])
      rw [← hlast, hone]
    · rename_i hmore
      rw [not_or] at hmore
      rw [decodeChunks_cons, ← List.append_assoc] at hend ⊢
      apply ih hmore.1 (fun d hd => hne d (List.mem_cons_of_mem _ hd)) hend
      intro p hp hprompt
      have hcons := hfirst (data :: p) (List.cons_prefix_cons.2 ⟨rfl, hp⟩)
      rw [decodeChunks_cons, ← List.append_assoc] at hcons
      exact (List.cons.inj (hcons hprompt)).2

theorem exists_undivided (h : prompt <:+ decodeChunks chunks) :
    ∃ pre, pre <+: chunks ∧ prompt <:+ decodeChunks pre ∧ Undivided pre := by
  induction hn : chunks.length using Nat.strong_induction_on generalizing chunks with
  | h n ih =>
    by_cases hchunks : Undivided chunks
    · exact ⟨chunks, List.prefix_rfl, h, hchunks⟩
    · rw [Undivided] at hchunks
      push Not at hchunks
      obtain ⟨p, hp, hprompt, hne⟩ := hchunks
      have hlt : p.length < n := by
        have hle := hp.length_le
        have hlen : p.length ≠ chunks.length := fun heq => hne (hp.eq_of_length heq)
        omega
      obtain ⟨pre, hpre, hend, hfirst⟩ := ih p.length hlt hprompt rfl
      exact ⟨pre, hpre.trans hp, hend, hfirst⟩

end

section
variable {greeting : Bytes} {cmd body said : List Char} {pre : List Bytes}
  (d : Delivery greeting cmd body)

theorem prompt_ne_nil (s : List Char) : s ++ prompt ≠ [] :=
  List.append_ne_nil_of_right_ne_nil s (by decide)

theorem Delivery.chunk_ne_nil {data : Bytes} (h : data ∈ d.chunks) : data ≠ [] :=
  (d.segments data h).1

theorem Delivery.flatten_chunks : d.chunks.flatten = d.rest ++ encodeUtf8 (body ++ prompt) :=
  d.reply

theorem Delivery.flatten_bytes :
    d.chunks.flatten = d.rest ++ encodeUtf8 body ++ [0x0A] ++ [0x3E] ++ [0x20] := by
  rw [d.flatten_chunks, encodeUtf8_append, show encodeUtf8 prompt = [0x0A, 0x3E, 0x20] by decide]
  simp

theorem Delivery.decode_flatten :
    decodeReplace d.chunks.flatten = decodeReplace d.rest ++ (body ++ prompt) := by
  rw [d.flatten_chunks, decodeReplace_append_encode (prompt_ne_nil body)]

theorem Delivery.exists_text : ∃ text, decodeChunks d.chunks = text ++ prompt := by
  obtain ⟨before₁, hbefore₁, htext₁⟩ := decodeChunks_last (c := ' ') (by decide) d.flatten_bytes
  obtain ⟨before₂, hbefore₂, htext₂⟩ := decodeChunks_last (c := '>') (by decide) hbefore₁
  obtain ⟨before₃, -, htext₃⟩ := decodeChunks_last (c := '\n') (by decide) hbefore₂
  refine ⟨decodeChunks before₃, ?_⟩
  rw [htext₁, htext₂, htext₃, List.append_assoc, List.append_assoc]
  rfl

/-- The text up to the first prompt that ends a chunk is what is returned. -/
theorem Delivery.sendRpc_said {text : List Char} (hpre : pre <+: d.chunks)
    (hfirst : Undivided pre) (hsaid : decodeChunks pre = said ++ prompt) :
    sendRpc cmd d.greeted d.serve = some text ↔ greeting ≠ [] ∧ pyStrip said = text := by
  obtain ⟨post, hpost⟩ := hpre
  have hne : ∀ data ∈ pre, data ≠ [] := fun data hdata =>
    d.chunk_ne_nil (hpost ▸ List.mem_append_left _ hdata)
  have hend : prompt <:+ [] ++ decodeChunks pre := ⟨said, hsaid.symm⟩
  have hreceive : receive [] (pre ++ post) = [] ++ decodeChunks pre :=
    receive_append (by decide) hne hend hfirst
  rw [List.nil_append, hpost, hsaid] at hreceive
  rw [sendRpc, ← Delivery.chunks, hreceive, rsplitPrompt_append, Option.map_eq_some_iff,
    ne_eq, ← d.silent, Option.eq_none_iff_forall_ne_some]
  push Not
  exact exists_and_right

theorem Delivery.exists_said : ∃ pre said, pre <+: d.chunks ∧ Undivided pre ∧
    decodeChunks pre = said ++ prompt := by
  obtain ⟨text, htext⟩ := d.exists_text
  obtain ⟨pre, hpre, ⟨said, hsaid⟩, hfirst⟩ := exists_undivided ⟨text, htext.symm⟩
  exact ⟨pre, said, hpre, hfirst, hsaid.symm⟩

theorem count_pyStrip (l : List Char) : (pyStrip l).count '>' = l.count '>' := by
  apply countP_pyStrip (p := (· == '>'))
  intro c hc
  rw [beq_eq_false_iff_ne]
  rintro rfl
  exact absurd hc (by decide)

theorem count_prompt : prompt.count '>' = 1 := by decide

theorem Delivery.count_chunks (hblank : ∀ c ∈ decodeReplace d.rest, isPySpace c = true) :
    (decodeChunks d.chunks).count '>' = body.count '>' + 1 := by
  have hrest : (decodeReplace d.rest).count '>' = 0 := by
    rw [List.count_eq_zero]
    intro hmem
    exact absurd (hblank _ hmem) (by decide)
  rw [count_decodeChunks (by decide), d.decode_flatten, List.count_append, List.count_append,
    hrest, count_prompt, Nat.zero_add]

/-- Chunks behind a prompt that are not the last end in a prompt of their own. -/
theorem Delivery.count_left {post : List Bytes} (hpost : pre ++ post = d.chunks)
    (hne : post ≠ []) (hsaid : decodeChunks pre = said ++ prompt) :
    0 < (decodeChunks post).count '>' := by
  have hbytes := d.flatten_bytes
  rw [← hpost, List.flatten_append] at hbytes
  rcases List.eq_nil_or_concat post.flatten with hnil | ⟨bs, x, hlast⟩
  · obtain ⟨data, post, rfl⟩ := List.exists_cons_of_ne_nil hne
    have hdata : data ∈ d.chunks := hpost ▸ List.mem_append_right _ (List.mem_cons_self ..)
    rw [List.flatten_cons, List.append_eq_nil_iff] at hnil
    exact (d.chunk_ne_nil hdata hnil.1).elim
  · rw [hlast, List.concat_eq_append, ← List.append_assoc] at hbytes
    obtain ⟨hinit, hx⟩ := List.append_inj' hbytes rfl
    cases hx
    rw [List.concat_eq_append] at hlast
    obtain ⟨before, hbefore, hpostText⟩ := decodeChunks_last (c := ' ') (by decide) hlast
    rw [hpostText, List.count_append]
    rcases List.eq_nil_or_concat bs with rfl | ⟨bs, y, rfl⟩
    · -- The text before would end in '>', not in the blank behind it.
      rw [List.append_nil] at hinit
      obtain ⟨before', -, hpreText⟩ := decodeChunks_last (c := '>') (by decide) hinit
      have hends : said ++ "\n>".toList ++ [' '] = decodeChunks before' ++ ['>'] := by
        rw [← hpreText, hsaid, List.append_assoc]
        rfl
      exact absurd (List.append_inj' hends rfl).2 (by decide)
    · rw [List.concat_eq_append, ← List.append_assoc] at hinit
      obtain ⟨-, hy⟩ := List.append_inj' hinit rfl
      cases hy
      rw [List.concat_eq_append] at hbefore
      obtain ⟨before', -, htext⟩ := decodeChunks_last (c := '>') (by decide) hbefore
      rw [htext, List.count_append, show ['>'].count '>' = 1 by decide]
      omega

/-- Text that leaves a prompt behind is not the reply: it has one '>' too few. -/
theorem Delivery.early_ne (hblank : ∀ c ∈ decodeReplace d.rest, isPySpace c = true)
    (hpre : pre <+: d.chunks) (hne : pre ≠ d.chunks) (hsaid : decodeChunks pre = said ++ prompt) :
    pyStrip said ≠ pyStrip body := by
  intro hsame
  obtain ⟨post, hpost⟩ := hpre
  have hleft : post ≠ [] := by
    rintro rfl
    rw [List.append_nil] at hpost
    exact hne hpost
  have hpos := d.count_left hpost hleft hsaid
  have hcount := d.count_chunks hblank
  have hbody : said.count '>' = body.count '>' := by
    rw [← count_pyStrip, hsame, count_pyStrip]
  rw [← hpost, decodeChunks_append, hsaid, List.count_append, List.count_append, count_prompt,
    hbody] at hcount
  omega

theorem visible_prompt : visible prompt = 1 := by decide

theorem visible_pos {s : List Char} (h : ∃ c ∈ s, isPySpace c = false) : 0 < visible s := by
  obtain ⟨c, hc, hsolid⟩ := h
  rw [visible, List.countP_pos_iff]
  exact ⟨c, hc, by rw [hsolid]; rfl⟩

theorem pyStrip_blank_append {s : List Char} (h : ∀ c ∈ s, isPySpace c = true) (t : List Char) :
    pyStrip (s ++ t) = pyStrip t := by
  induction s with
  | nil => rfl
  | cons c s ih =>
    rw [List.cons_append, pyStrip_cons_space (h c (List.mem_cons_self ..)),
      ih fun x hx => h x (List.mem_cons_of_mem _ hx)]

theorem Delivery.visible_flatten : visible (decodeReplace d.chunks.flatten) =
    visible (decodeReplace d.rest) + (visible body + 1) := by
  rw [d.decode_flatten, visible_append, visible_append, visible_prompt]

theorem Delivery.whole_of_same (hblank : ∀ c ∈ decodeReplace d.rest, isPySpace c = true)
    (hsaid : decodeChunks d.chunks = said ++ prompt) (hsame : pyStrip said = pyStrip body) :
    WholeCharacters d.chunks := by
  by_contra hcut
  have hlt := visible_decodeChunks_lt hcut
  rw [d.visible_flatten, hsaid, visible_append, visible_prompt, visible_blank hblank,
    ← visible_pyStrip said, hsame, visible_pyStrip] at hlt
  omega

theorem Delivery.early_of_same (hleft : ∃ c ∈ decodeReplace d.rest, isPySpace c = false)
    (hsaid : decodeChunks pre = said ++ prompt) (hsame : pyStrip said = pyStrip body) :
    pre ≠ d.chunks := by
  rintro rfl
  have hle := visible_decodeChunks_le d.chunks
  have hpos := visible_pos hleft
  rw [d.visible_flatten, hsaid, visible_append, visible_prompt, ← visible_pyStrip said, hsame,
    visible_pyStrip] at hle
  omega

/-- The reply is returned as it is exactly in a clean delivery, or by coincidence. -/
theorem Delivery.sendRpc_iff :
    sendRpc cmd d.greeted d.serve = some (pyStrip body) ↔ d.Clean ∨ d.Echoed := by
  constructor
  · intro h
    obtain ⟨pre, said, hpre, hfirst, hsaid⟩ := d.exists_said
    obtain ⟨hgreeted, hsame⟩ := (d.sendRpc_said hpre hfirst hsaid).1 h
    by_cases hblank : ∀ c ∈ decodeReplace d.rest, isPySpace c = true
    · have hall : pre = d.chunks := by
        by_contra hne
        exact d.early_ne hblank hpre hne hsaid hsame
      subst hall
      exact .inl ⟨hgreeted, hblank, d.whole_of_same hblank hsaid hsame, hfirst⟩
    · have hleft : ∃ c ∈ decodeReplace d.rest, isPySpace c = false := by
        push Not at hblank
        simpa using hblank
      have hearly := d.early_of_same hleft hsaid hsame
      exact .inr ⟨hgreeted, hleft, pre, said, hpre, hearly, hfirst, hsaid, hsame⟩
  · rintro (⟨hgreeted, hblank, hwhole, hfirst⟩ | ⟨hgreeted, -, pre, said, hpre, -, hfirst, hsaid,
      hsame⟩)
    · have hsaid : decodeChunks d.chunks = decodeReplace d.rest ++ body ++ prompt := by
        rw [decodeChunks_whole hwhole, d.decode_flatten, List.append_assoc]
      apply (d.sendRpc_said List.prefix_rfl hfirst hsaid).2
      exact ⟨hgreeted, pyStrip_blank_append hblank body⟩
    · exact (d.sendRpc_said hpre hfirst hsaid).2 ⟨hgreeted, hsame⟩

end

/-- The greeting comes in two segments, and the second is taken for the reply. -/
def lateGreeting : Delivery (encodeUtf8 "Open On-Chip Debugger\n> ".toList) "reg".toList
    "r0: 0x01".toList where
  greeted := some (encodeUtf8 "Open On-Chip ".toList)
  rest := encodeUtf8 "Debugger\n> ".toList
  serve _ := [encodeUtf8 "Debugger\n> ".toList, encodeUtf8 "r0: 0x01\n> ".toList]
  silent := by decide
  first := by decide
  greeting_eq := by decide
  reply := by decide
  segments := by decide

theorem lateGreeting_output :
    sendRpc "reg".toList lateGreeting.greeted lateGreeting.serve = some "Debugger".toList ∧
      some "Debugger".toList ≠ some (pyStrip "r0: 0x01".toList) := by decide +kernel

end JtagCrashDumper

end MesCore

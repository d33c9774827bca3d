import Mathlib.Logic.Function.Basic
import Mathlib.Data.List.Nodup
import MesCore.Deadlines

namespace MesCore
set_option autoImplicit true

/-- `_MAX_LOGS`. -/
def maxLogs : Nat := 50000

inductive WaitOutcome
  | found (line : String)
  | timedOut
  | runtimeError
  deriving DecidableEq

/-- The places of a `wait_for_regex`. An iterator over the history is stale once the history has
changed; `polling` is the top of the loop and `leaving` the `finally`. -/
inductive WaitPlace
  | called
  | subscribed
  | scanning (left : List String) (stale : Bool)
  | polling
  | getting
  | leaving (o : WaitOutcome)
  | done (o : WaitOutcome)
  deriving DecidableEq

/-- A `wait_for_regex`: its pattern and its queue; the lines that were in the history when it was
called or have come since, before its deadline; and whether the deadline has passed. -/
structure UdpWait where
  pattern : String → Bool
  queue : List String := []
  place : WaitPlace := .called
  due : List String
  late : Bool := false

/-- The statements of a `wait_for_regex`, and the passing of its deadline. -/
inductive WaitAct
  | subscribe
  | openScan
  | scanNext
  | elapse
  | check
  | take
  | empty
  | leave
  deriving DecidableEq

/-- The listener thread between two statements of its loop. -/
inductive UdpListener
  | receiving
  | logged (line : String)
  | broadcasting (line : String) (left : List Nat)

/-- The receiver with every line it ever logged and every call that was ever made. -/
structure UdpReceiver where
  arrived : List String := []
  subscribers : List Nat := []
  listener : UdpListener := .receiving
  waits : Nat → Option UdpWait := fun _ => none

inductive UdpAct
  | packet (decoded : String)
  | copySubscribers
  | send
  | call (i : Nat) (pattern : String → Bool)
  | wait (i : Nat) (a : WaitAct)

namespace WaitPlace

def outcome : WaitPlace → Option WaitOutcome
  | .leaving o | .done o => some o
  | _ => none

/-- Between the subscription and the end of the `finally`. -/
def enrolled : WaitPlace → Bool
  | .called | .done _ => false
  | _ => true

def scans : WaitPlace → Bool
  | .scanning _ _ => true
  | _ => false

/-- How many statements a call is from its end, once it looks at the clock and that is late. -/
def toGo : WaitPlace → Nat
  | .done _ => 0
  | .leaving _ => 1
  | .polling => 2
  | .getting => 3
  | _ => 4

end WaitPlace

namespace UdpWait
section
variable (w : UdpWait)

def hear (line : String) : UdpWait :=
  { w with
    due := if w.late then w.due else w.due ++ [line]
    place := match w.place with
      | .scanning left _ => .scanning left true
      | p => p }

/-- One statement of the call. `logs` is what the history holds. -/
def advance (logs : List String) : WaitAct → Option UdpWait
  | .subscribe =>
    match w.place with
    | .called => some { w with place := .subscribed }
    | _ => none
  | .openScan =>
    match w.place with
    | .subscribed => some { w with place := .scanning logs false }
    | _ => none
  | .scanNext =>
    match w.place with
    | .scanning _ true => some { w with place := .leaving .runtimeError }
    | .scanning [] false => some { w with place := .polling }
    | .scanning (line :: left) false =>
      if w.pattern line then some { w with place := .leaving (.found line) }
      else some { w with place := .scanning left false }
    | _ => none
  | .elapse =>
    match w.place with
    | .polling | .getting => some { w with late := true }
    | _ => none
  | .check =>
    match w.place with
    | .polling =>
      if w.late then some { w with place := .leaving .timedOut }
      else some { w with place := .getting }
    | _ => none
  | .take =>
    match w.place, w.queue with
    | .getting, line :: queue =>
      if w.pattern line then some { w with queue := queue, place := .leaving (.found line) }
      else some { w with queue := queue, place := .polling }
    | _, _ => none
  | .empty =>
    match w.place, w.queue, w.late with
    | .getting, [], true => some { w with place := .leaving .timedOut }
    | _, _, _ => none
  | .leave =>
    match w.place with
    | .leaving o => some { w with place := .done o }
    | _ => none

def deadline : Deadline UdpWait where
  late := UdpWait.late
  toGo w := w.place.toGo
  limit := 3

/-- A line of these that arrived in time matches. -/
def Awaits (lines : List String) : Prop := ∃ line ∈ w.due, w.pattern line = true ∧ line ∈ lines

/-- The lines the call has still in front of it: what it has not scanned of the history, its
queue, and what the listener is about to send it. -/
def ahead (logs pending : List String) : List String :=
  match w.place with
  | .called | .subscribed => logs ++ w.queue ++ pending
  | .scanning left _ => left ++ w.queue ++ pending
  | _ => w.queue ++ pending

/-- A call returns a logged line that matches, or no line that arrived in time does. -/
def Right (arrived : List String) : WaitOutcome → Prop
  | .found line => w.pattern line = true ∧ line ∈ arrived
  | .timedOut => ∀ line ∈ w.due, w.pattern line = false
  | .runtimeError => False

/-- What a call keeps: nothing it waits for is lost, its iterator is not stale, and what it has
returned is right. -/
structure Kept (logs pending arrived : List String) : Prop where
  logged : ∀ line ∈ w.ahead logs pending, line ∈ arrived
  live : w.place.outcome = none → w.Awaits w.due → w.Awaits (w.ahead logs pending)
  fresh : ∀ left stale, w.place = .scanning left stale → stale = false
  right : ∀ o, w.place.outcome = some o → w.Right arrived o
  timely : w.place.outcome = some .timedOut → w.late = true

/-- The statements of a call, with what each of them needs. -/
inductive Moved (logs : List String) : WaitAct → UdpWait → Prop
  | subscribe : w.place = .called → Moved logs .subscribe { w with place := .subscribed }
  | openScan : w.place = .subscribed →
      Moved logs .openScan { w with place := .scanning logs false }
  | broken : w.place = .scanning left true →
      Moved logs .scanNext { w with place := .leaving .runtimeError }
  | scanned : w.place = .scanning [] false → Moved logs .scanNext { w with place := .polling }
  | seen : w.place = .scanning (line :: left) false → w.pattern line = true →
      Moved logs .scanNext { w with place := .leaving (.found line) }
  | passed : w.place = .scanning (line :: left) false → w.pattern line = false →
      Moved logs .scanNext { w with place := .scanning left false }
  | elapse : w.place = .polling ∨ w.place = .getting → Moved logs .elapse { w with late := true }
  | gaveUp : w.place = .polling → w.late = true →
      Moved logs .check { w with place := .leaving .timedOut }
  | blocked : w.place = .polling → w.late = false → Moved logs .check { w with place := .getting }
  | got : w.place = .getting → w.queue = line :: rest → w.pattern line = true →
      Moved logs .take { w with queue := rest, place := .leaving (.found line) }
  | skipped : w.place = .getting → w.queue = line :: rest → w.pattern line = false →
      Moved logs .take { w with queue := rest, place := .polling }
  | starved : w.place = .getting → w.queue = [] → w.late = true →
      Moved logs .empty { w with place := .leaving .timedOut }
  | left : w.place = .leaving o → Moved logs .leave { w with place := .done o }

end

section
variable {w w' : UdpWait} {logs pending arrived : List String} {a : WaitAct}

theorem moved_of_advance (h : w.advance logs a = some w') : w.Moved logs a w' := by
  cases a with
  | subscribe =>
    rw [advance] at h
    split at h
    · cases h
      exact .subscribe ‹_›
    · cases h
  | openScan =>
    rw [advance] at h
    split at h
    · cases h
      exact .openScan ‹_›
    · cases h
  | scanNext =>
    rw [advance] at h
    split at h
    · cases h
      exact .broken ‹_›
    · cases h
      exact .scanned ‹_›
    · rename_i line left hp
      split at h
      · cases h
        exact .seen hp ‹_›
      · rename_i hno
        cases h
        exact .passed hp (Bool.not_eq_true _ ▸ hno)
    · cases h
  | elapse =>
    rw [advance] at h
    split at h
    · cases h
      exact .elapse (.inl ‹_›)
    · cases h
      exact .elapse (.inr ‹_›)
    · cases h
  | check =>
    rw [advance] at h
    split at h
    · rename_i hp
      split at h
      · cases h
        exact .gaveUp hp ‹_›
      · rename_i hearly
        cases h
        exact .blocked hp (Bool.not_eq_true _ ▸ hearly)
    · cases h
  | take =>
    rw [advance] at h
    split at h
    · rename_i line queue hp hq
      split at h
      · cases h
        exact .got hp hq ‹_›
      · rename_i hno
        cases h
        exact .skipped hp hq (Bool.not_eq_true _ ▸ hno)
    · cases h
  | empty =>
    rw [advance] at h
    split at h
    · cases h
      exact .starved ‹_› ‹_› ‹_›
    · cases h
  | leave =>
    rw [advance] at h
    split at h
    · cases h
      exact .left ‹_›
    · cases h

theorem Awaits.mono {lines lines' : List String} (h : w.Awaits lines)
    (hs : ∀ line ∈ lines, line ∈ lines') : w.Awaits lines' := by
  obtain ⟨line, hdue, hmatch, hmem⟩ := h
  exact ⟨line, hdue, hmatch, hs line hmem⟩

theorem Awaits.of_cons {line : String} {lines : List String} (h : w.Awaits (line :: lines))
    (hno : w.pattern line = false) : w.Awaits lines := by
  obtain ⟨l, hdue, hmatch, hmem⟩ := h
  rcases List.mem_cons.1 hmem with rfl | hmem
  · rw [hno] at hmatch
    cases hmatch
  · exact ⟨l, hdue, hmatch, hmem⟩

theorem not_awaits_due (h : ¬ w.Awaits w.due) : ∀ line ∈ w.due, w.pattern line = false := by
  intro line hdue
  cases hmatch : w.pattern line with
  | false => rfl
  | true => exact absurd ⟨line, hdue, hmatch, hdue⟩ h

theorem Kept.widen {pending' : List String} (h : w.Kept logs pending arrived)
    (hs : w.place.outcome = none → ∀ line ∈ pending, line ∈ pending')
    (hp : ∀ line ∈ pending', line ∈ arrived) : w.Kept logs pending' arrived := by
  refine ⟨?_, ?_, h.fresh, h.right, h.timely⟩
  · intro line hline
    have hor : line ∈ w.ahead logs pending ∨ line ∈ pending' := by
      unfold ahead at hline ⊢
      split at hline <;> simp only [List.mem_append] at hline ⊢ <;> tauto
    rcases hor with hline | hline
    · exact h.logged line hline
    · exact hp line hline
  · intro ho hdue
    apply (h.live ho hdue).mono
    intro line hline
    have hsub := hs ho line
    unfold ahead at hline ⊢
    split at hline <;> simp only [List.mem_append] at hline ⊢ <;> tauto

/-- A statement that leaves the call in progress and what it has in front of it. -/
theorem Kept.go_on (h : w.Kept logs pending arrived) (hw : w.place.outcome = none)
    (hw' : w'.place.outcome = none) (hdue : w'.due = w.due) (hpattern : w'.pattern = w.pattern)
    (hahead : w'.ahead logs pending = w.ahead logs pending)
    (hfresh : ∀ left stale, w'.place = .scanning left stale → stale = false) :
    w'.Kept logs pending arrived where
  logged := by
    rw [hahead]
    exact h.logged
  live _ hawaits := by
    rw [hahead]
    rw [Awaits, hdue, hpattern] at hawaits ⊢
    exact h.live hw hawaits
  fresh := hfresh
  right o ho := by
    rw [hw'] at ho
    cases ho
  timely ho := by
    rw [hw'] at ho
    cases ho

theorem Kept.skip (h : w.Kept logs pending arrived) (hw : w.place.outcome = none)
    (hw' : w'.place.outcome = none) (hdue : w'.due = w.due) (hpattern : w'.pattern = w.pattern)
    {line : String} (hahead : w.ahead logs pending = line :: w'.ahead logs pending)
    (hno : w.pattern line = false)
    (hfresh : ∀ left stale, w'.place = .scanning left stale → stale = false) :
    w'.Kept logs pending arrived where
  logged l hl := by
    apply h.logged
    rw [hahead]
    exact List.mem_cons_of_mem _ hl
  live _ hawaits := by
    rw [Awaits, hdue, hpattern] at hawaits ⊢
    have hlive := h.live hw hawaits
    rw [hahead] at hlive
    exact hlive.of_cons hno
  fresh := hfresh
  right o ho := by
    rw [hw'] at ho
    cases ho
  timely ho := by
    rw [hw'] at ho
    cases ho

theorem Kept.finish {o : WaitOutcome} (hlogged : ∀ line ∈ w.ahead logs pending, line ∈ arrived)
    (ho : w.place.outcome = some o) (hright : w.Right arrived o)
    (htimely : o = .timedOut → w.late = true) : w.Kept logs pending arrived where
  logged := hlogged
  live hnone := by
    rw [ho] at hnone
    cases hnone
  fresh left stale hp := by
    rw [hp] at ho
    cases ho
  right o' ho' := by
    rw [ho] at ho'
    cases ho'
    exact hright
  timely ho' := by
    rw [ho] at ho'
    cases ho'
    exact htimely rfl

theorem Kept.finds (h : w.Kept logs pending arrived) {line : String} {front : List String}
    (hahead : w.ahead logs pending = line :: front)
    (hfront : ∀ l ∈ w'.ahead logs pending, l ∈ front) (hp : w'.place = .leaving (.found line))
    (hmatch : w'.pattern line = true) : w'.Kept logs pending arrived := by
  have hlogged := h.logged
  rw [hahead] at hlogged
  have ho : w'.place.outcome = some (.found line) := by
    rw [hp]
    rfl
  apply Kept.finish _ ho
  · exact ⟨hmatch, hlogged line (List.mem_cons_self ..)⟩
  · intro hcontra
    cases hcontra
  · intro l hl
    exact hlogged l (List.mem_cons_of_mem _ (hfront l hl))

/-- A call whose deadline has passed gives up, with no awaited line in front of it. -/
theorem Kept.give_up (h : w.Kept logs pending arrived) (hw : w.place.outcome = none)
    (hahead : UdpWait.ahead { w with place := .leaving .timedOut } logs pending =
      w.ahead logs pending)
    (hlate : w.late = true) (hg : ¬ w.Awaits (w.ahead logs pending)) :
    UdpWait.Kept { w with place := .leaving .timedOut } logs pending arrived := by
  have hright : ∀ line ∈ w.due, w.pattern line = false :=
    not_awaits_due fun hdue => hg (h.live hw hdue)
  refine Kept.finish ?_ rfl hright fun _ => hlate
  rw [hahead]
  exact h.logged

/-- A statement of the call keeps it, unless it gives up with an awaited line in front of it. -/
theorem Kept.moved (h : w.Kept logs pending arrived) (hm : w.Moved logs a w')
    (hg : a = .check ∨ a = .empty → w.late = true → ¬ w.Awaits (w.ahead logs pending)) :
    w'.Kept logs pending arrived := by
  cases hm with
  | subscribe hp =>
    apply h.go_on <;> simp [ahead, hp, WaitPlace.outcome]
  | openScan hp =>
    apply h.go_on <;> simp [ahead, hp, WaitPlace.outcome]
  | broken hp => cases h.fresh _ _ hp
  | scanned hp =>
    apply h.go_on <;> simp [ahead, hp, WaitPlace.outcome]
  | @seen line left hp hmatch =>
    have hahead : w.ahead logs pending = line :: (left ++ w.queue ++ pending) := by
      simp [ahead, hp]
    refine h.finds hahead ?_ rfl hmatch
    intro l hl
    rw [List.append_assoc]
    exact List.mem_append_right _ hl
  | @passed line left hp hno =>
    refine h.skip ?_ ?_ rfl rfl ?_ hno ?_ <;> simp [ahead, hp, WaitPlace.outcome]
  | elapse hp =>
    rcases hp with hp | hp
    · apply h.go_on <;> simp [ahead, hp, WaitPlace.outcome]
    · apply h.go_on <;> simp [ahead, hp, WaitPlace.outcome]
  | gaveUp hp hlate =>
    apply h.give_up _ _ hlate (hg (.inl rfl) hlate) <;> simp [ahead, hp, WaitPlace.outcome]
  | blocked hp hlate =>
    apply h.go_on <;> simp [ahead, hp, WaitPlace.outcome]
  | @got line rest hp hq hmatch =>
    have hahead : w.ahead logs pending = line :: (rest ++ pending) := by
      simp [ahead, hp, hq]
    exact h.finds hahead (fun l hl => hl) rfl hmatch
  | @skipped line rest hp hq hno =>
    refine h.skip ?_ ?_ rfl rfl ?_ hno ?_ <;> simp [ahead, hp, hq, WaitPlace.outcome]
  | starved hp hq hlate =>
    apply h.give_up _ _ hlate (hg (.inr rfl) hlate) <;> simp [ahead, hp, WaitPlace.outcome]
  | @left o hp =>
    have ho : w.place.outcome = some o := by
      rw [hp]
      rfl
    refine Kept.finish ?_ rfl (h.right o ho) ?_
    · intro l hl
      apply h.logged
      simpa only [ahead, hp] using hl
    · intro heq
      rw [heq] at ho
      exact h.timely ho

theorem hear_place (line : String) (hscan : w.place.scans = false) :
    (w.hear line).place = w.place := by
  unfold hear
  dsimp only
  split
  · rename_i hp
    rw [hp] at hscan
    cases hscan
  · rfl

theorem mem_due_hear {line l : String} (h : l ∈ (w.hear line).due) :
    l ∈ w.due ∨ l = line ∧ w.late = false := by
  unfold hear at h
  dsimp only at h
  split at h
  · exact .inl h
  · rename_i hearly
    rcases List.mem_append.1 h with h | h
    · exact .inl h
    · exact .inr ⟨List.mem_singleton.1 h, Bool.not_eq_true _ ▸ hearly⟩

/-- A line that is logged reaches every call in progress, by the history or by the broadcast. -/
theorem Kept.hear {line : String} {logs' pending' : List String} (h : w.Kept logs [] arrived)
    (hscan : w.place.scans = false) (hnew : line ∈ logs')
    (hlogs : ∀ l ∈ logs', l ∈ arrived ++ [line]) (hpending : ∀ l ∈ pending', l = line)
    (hlive : w.place.enrolled = true → line ∈ pending')
    (hsight : w.Awaits (w.ahead logs []) →
      (w.hear line).Awaits ((w.hear line).ahead logs' pending')) :
    (w.hear line).Kept logs' pending' (arrived ++ [line]) := by
  have hplace := hear_place line hscan
  have hqueue : ∀ l ∈ w.queue, l ∈ arrived := by
    intro l hl
    apply h.logged
    unfold ahead
    split <;> simp [hl]
  refine ⟨?_, ?_, ?_, ?_, ?_⟩
  · have hrest : ∀ l ∈ w.queue ++ pending', l ∈ arrived ++ [line] := by
      intro l hl
      rcases List.mem_append.1 hl with hl | hl
      · exact List.mem_append_left _ (hqueue l hl)
      · rw [hpending l hl]
        exact List.mem_append_right _ (List.mem_singleton_self _)
    intro l hl
    rw [ahead, hplace] at hl
    split at hl
    · rw [List.append_assoc] at hl
      exact (List.mem_append.1 hl).elim (hlogs l) (hrest l)
    · rw [List.append_assoc] at hl
      exact (List.mem_append.1 hl).elim (hlogs l) (hrest l)
    · rename_i hp
      rw [hp] at hscan
      cases hscan
    · exact hrest l hl
  · intro ho hawaits
    rw [hplace] at ho
    obtain ⟨l, hdue, hmatch, -⟩ := hawaits
    rcases mem_due_hear hdue with hold | ⟨rfl, -⟩
    · exact hsight (h.live ho ⟨l, hold, hmatch, hold⟩)
    · refine ⟨l, hdue, hmatch, ?_⟩
      rw [ahead, hplace]
      cases hp : w.place with
      | called => simp [hnew]
      | subscribed => simp [hnew]
      | scanning left stale =>
        rw [hp] at hscan
        cases hscan
      | polling => simp [hlive (by rw [hp]; rfl)]
      | getting => simp [hlive (by rw [hp]; rfl)]
      | leaving o =>
        rw [hp] at ho
        cases ho
      | done o =>
        rw [hp] at ho
        cases ho
  · intro left stale hp
    rw [hplace] at hp
    rw [hp] at hscan
    cases hscan
  · intro o ho
    rw [hplace] at ho
    have hright := h.right o ho
    cases o with
    | found l => exact ⟨hright.1, List.mem_append_left _ hright.2⟩
    | timedOut =>
      have hlate := h.timely ho
      intro l hdue
      rcases mem_due_hear hdue with hold | ⟨-, hearly⟩
      · exact hright l hold
      · rw [hlate] at hearly
        cases hearly
    | runtimeError => exact hright
  · intro ho
    rw [hplace] at ho
    exact h.timely ho

theorem Kept.receive {line : String} {pending' : List String} (h : w.Kept logs [line] arrived)
    (hp : ∀ l ∈ pending', l = line) :
    UdpWait.Kept { w with queue := w.queue ++ [line] } logs pending' arrived := by
  have hmono : ∀ l ∈ w.ahead logs [line],
      l ∈ UdpWait.ahead { w with queue := w.queue ++ [line] } logs pending' := by
    intro l hl
    unfold ahead at hl ⊢
    dsimp only
    split at hl <;> simp only [List.mem_append] at hl ⊢ <;> tauto
  have hback : ∀ l ∈ UdpWait.ahead { w with queue := w.queue ++ [line] } logs pending',
      l ∈ w.ahead logs [line] := by
    intro l hl
    have hline := hp l
    unfold ahead at hl ⊢
    dsimp only at hl
    split at hl <;> simp only [List.mem_append, List.mem_singleton] at hl ⊢ <;> tauto
  refine ⟨fun l hl => h.logged l (hback l hl), ?_, h.fresh, h.right, h.timely⟩
  intro ho hdue
  exact (h.live ho hdue).mono hmono

theorem moved_stays (hm : w.Moved logs a w') (ho : w'.place.outcome = none) :
    w'.place.enrolled = true := by
  cases hm with
  | elapse hp => rcases hp with hp | hp <;> simp [hp, WaitPlace.enrolled]
  | left hp => cases ho
  | _ => rfl

theorem moved_enrolled (hm : w.Moved logs a w') :
    (a = .subscribe ∧ w.place.enrolled = false ∧ w'.place.enrolled = true) ∨
      (a = .leave ∧ w.place.enrolled = true ∧ w'.place.enrolled = false) ∨
      (a ≠ .subscribe ∧ a ≠ .leave ∧ w.place.enrolled = true ∧ w'.place.enrolled = true) := by
  cases hm with
  | elapse hp =>
    right
    right
    rcases hp with hp | hp <;> simp [hp, WaitPlace.enrolled]
  | _ => simp_all [WaitPlace.enrolled]

theorem hear_late (line : String) : (w.hear line).late = w.late := rfl

theorem hear_toGo (line : String) : (w.hear line).place.toGo = w.place.toGo := by
  unfold hear
  dsimp only
  split
  · rename_i hp
    rw [hp]
    rfl
  · rfl

/-- The clock is watched behind the scan only, and then nothing holds a late call back. -/
theorem deadline_moved (hm : w.Moved logs a w') :
    deadline.Step (a != .elapse) (some w) (some w') := by
  have hearly (hp : w.place.toGo = 4) (hlate : w'.late = w.late) :
      deadline.Step (a != .elapse) (some w) (some w') :=
    .early (by simp [deadline, hp]) hlate
  have hwatching (h : w.place.toGo ≤ 3) (hlate : w'.late = w.late)
      (h' : w'.place.toGo + 1 ≤ w.place.toGo) :
      deadline.Step (a != .elapse) (some w) (some w') := by
    apply Deadline.Step.watching h (show w'.place.toGo ≤ 3 by omega)
    intro hw
    apply And.intro (hlate.trans hw)
    have hone := Bool.toNat_le (a != .elapse)
    change _ + w'.place.toGo ≤ w.place.toGo
    omega
  cases hm with
  | subscribe hp | openScan hp | broken hp | scanned hp | seen hp _ | passed hp _ =>
    exact hearly (by rw [hp]; rfl) rfl
  | elapse hp =>
    have hbound : w.place.toGo ≤ 3 := by
      rcases hp with hp | hp
      · simp [hp, WaitPlace.toGo]
      · simp [hp, WaitPlace.toGo]
    exact .watching hbound hbound fun _ => ⟨rfl, by simp [deadline]⟩
  | blocked hp hlate =>
    apply Deadline.Step.watching
    · simp [deadline, hp, WaitPlace.toGo]
    · simp [deadline, WaitPlace.toGo]
    · intro hw
      cases hlate.symm.trans hw
  | gaveUp hp _ | got hp _ _ | skipped hp _ _ | starved hp _ _ | left hp =>
    apply hwatching _ rfl
    · simp [hp, WaitPlace.toGo]
    · simp [hp, WaitPlace.toGo]

theorem advances (logs : List String) (hlate : w.late = true) (h : w.place.toGo ≤ 3)
    (hdone : ∀ o, w.place ≠ .done o) : ∃ a, a ≠ .elapse ∧ (w.advance logs a).isSome = true := by
  cases hp : w.place with
  | called | subscribed | scanning left stale =>
    rw [hp] at h
    exact absurd h (by simp [WaitPlace.toGo])
  | polling => exact ⟨.check, by decide, by simp [advance, hp, hlate]⟩
  | getting =>
    cases hq : w.queue with
    | nil => exact ⟨.empty, by decide, by simp [advance, hp, hq, hlate]⟩
    | cons line rest =>
      apply Exists.intro .take
      apply And.intro (by decide)
      simp only [advance, hp, hq]
      split
      · rfl
      · rfl
  | leaving o => exact ⟨.leave, by decide, by simp [advance, hp]⟩
  | done o => exact absurd hp (hdone o)

end
end UdpWait

/-- A statement of the call, as against the passing of its deadline. -/
def UdpAct.states (i : Nat) : UdpAct → Bool
  | .wait j a => j == i && a != .elapse
  | _ => false

namespace UdpReceiver
section
variable (r : UdpReceiver)

/-- `_logs`, a deque that keeps the last `_MAX_LOGS` lines. -/
def logs : List String := r.arrived.drop (r.arrived.length - maxLogs)

/-- `_logs.append`. -/
def append (line : String) : UdpReceiver :=
  { r with
    arrived := r.arrived ++ [line]
    listener := .logged line
    waits := fun i => (r.waits i).map (·.hear line) }

def rollCall (i : Nat) : WaitAct → List Nat
  | .subscribe => r.subscribers ++ [i]
  | .leave => if i ∈ r.subscribers then r.subscribers.erase i else r.subscribers
  | _ => r.subscribers

/-- A datagram of which only white space is left is passed over. -/
def step : UdpAct → Option UdpReceiver
  | .packet decoded =>
    match r.listener with
    | .receiving => if decoded = "" then some r else some (r.append decoded)
    | _ => none
  | .copySubscribers =>
    match r.listener with
    | .logged line => some { r with listener := .broadcasting line r.subscribers }
    | _ => none
  | .send =>
    match r.listener with
    | .broadcasting line (i :: left) =>
      some { r with
        listener := .broadcasting line left
        waits := Function.update r.waits i
          ((r.waits i).map fun w => { w with queue := w.queue ++ [line] }) }
    | .broadcasting _ [] => some { r with listener := .receiving }
    | _ => none
  | .call i pattern =>
    match r.waits i with
    | none =>
      some { r with
        waits := Function.update r.waits i (some { pattern := pattern, due := r.logs }) }
    | some _ => none
  | .wait i a =>
    match r.waits i with
    | some w => (w.advance r.logs a).map fun w' =>
      { r with
        subscribers := r.rollCall i a
        waits := Function.update r.waits i (some w') }
    | none => none

/-- The line in the listener's hand, if it is to go to the call. -/
def pending (i : Nat) : List String :=
  match r.listener with
  | .receiving => []
  | .logged line => if i ∈ r.subscribers then [line] else []
  | .broadcasting line left => if i ∈ left then [line] else []

/-- A line the call is waiting for is still in front of it. -/
def InSight (i : Nat) (w : UdpWait) : Prop := w.Awaits (w.ahead r.logs (r.pending i))

/-- No line comes in while a call iterates over the history or drops from it the last line a call
is waiting for, and no call gives up with such a line in front of it. -/
def Guarded (r : UdpReceiver) : UdpAct → Prop
  | .packet decoded => decoded ≠ "" → ∀ i w, r.waits i = some w →
    w.place.scans = false ∧ (r.InSight i w → (r.append decoded).InSight i (w.hear decoded))
  | .wait i .check | .wait i .empty => ∀ w, r.waits i = some w → w.late = true → ¬ r.InSight i w
  | _ => True

def hand : List String :=
  match r.listener with
  | .receiving => []
  | .logged line | .broadcasting line _ => [line]

/-- What every guarded run keeps. -/
structure Sound : Prop where
  held : ∀ line ∈ r.hand, line ∈ r.arrived
  distinct : r.subscribers.Nodup
  enrolled : ∀ i, i ∈ r.subscribers ↔ ∃ w, r.waits i = some w ∧ w.place.enrolled = true
  kept : ∀ i w, r.waits i = some w → w.Kept r.logs (r.pending i) r.arrived

/-- What the caller of `wait_for_regex` relies on. -/
def Lawful : Prop :=
  ∀ i w, r.waits i = some w →
    (∀ o, w.place.outcome = some o → w.Right r.arrived o) ∧
      ∀ o, w.place = .done o → i ∉ r.subscribers

/-- A call whose deadline has passed is not held up, and ends within three statements. -/
def Prompt : Prop :=
  ∀ i w, r.waits i = some w → w.late = true →
    ((∀ o, w.place ≠ .done o) →
      ∃ a, UdpAct.states i (.wait i a) = true ∧ (r.step (.wait i a)).isSome = true) ∧
    ∀ acts r', Run step (fun _ _ => True) r acts r' → acts.countP (UdpAct.states i) ≤ 3

end

section
variable {r r' : UdpReceiver} {w : UdpWait} {i : Nat}

theorem logs_subset : ∀ line ∈ r.logs, line ∈ r.arrived :=
  fun _ h => List.mem_of_mem_drop h

theorem mem_logs_append (r : UdpReceiver) (line : String) : line ∈ (r.append line).logs := by
  have hle : (r.arrived ++ [line]).length - maxLogs ≤ r.arrived.length := by
    rw [List.length_append, List.length_singleton, maxLogs]
    omega
  change line ∈ (r.arrived ++ [line]).drop ((r.arrived ++ [line]).length - maxLogs)
  rw [List.drop_append_of_le_length hle]
  exact List.mem_append_right _ (List.mem_singleton_self _)

theorem pending_subset : ∀ line ∈ r.pending i, line ∈ r.hand := by
  intro line hline
  unfold pending at hline
  unfold hand
  split at hline
  · cases hline
  · split at hline
    · exact hline
    · cases hline
  · split at hline
    · exact hline
    · cases hline

/-- Other subscribers and calls do not change what the listener is about to send to a call. -/
theorem pending_with {roll : List Nat} {waits : Nat → Option UdpWait}
    (h : i ∈ r.subscribers ↔ i ∈ roll) :
    UdpReceiver.pending { r with subscribers := roll, waits := waits } i = r.pending i := by
  simp only [pending, h]

theorem Sound.lawful (h : r.Sound) : r.Lawful := by
  intro i w hw
  refine ⟨(h.kept i w hw).right, ?_⟩
  intro o ho hmem
  obtain ⟨w', hw', henrolled⟩ := (h.enrolled i).1 hmem
  rw [hw] at hw'
  cases hw'
  rw [ho] at henrolled
  cases henrolled

theorem Sound.append {line : String} (h : r.Sound) (hl : r.listener = .receiving)
    (hg : ∀ i w, r.waits i = some w → w.place.scans = false ∧
      (r.InSight i w → (r.append line).InSight i (w.hear line))) : (r.append line).Sound := by
  refine ⟨?_, h.distinct, ?_, ?_⟩
  · intro l hl
    exact List.mem_append_right _ hl
  · intro i
    rw [show (r.append line).subscribers = r.subscribers from rfl, h.enrolled i]
    constructor
    · rintro ⟨w, hw, henrolled⟩
      refine ⟨w.hear line, by simp [UdpReceiver.append, hw], ?_⟩
      rw [UdpWait.hear_place _ (hg i w hw).1]
      exact henrolled
    · rintro ⟨w', hw', henrolled⟩
      obtain ⟨w, hw, rfl⟩ := Option.map_eq_some_iff.1 hw'
      rw [UdpWait.hear_place _ (hg i w hw).1] at henrolled
      exact ⟨w, hw, henrolled⟩
  · intro i w' hw'
    obtain ⟨w, hw, rfl⟩ := Option.map_eq_some_iff.1 hw'
    have hnil : r.pending i = [] := by rw [pending, hl]
    have hkept := h.kept i w hw
    rw [hnil] at hkept
    apply hkept.hear (hg i w hw).1 (mem_logs_append r line) logs_subset
    · intro l hl
      exact List.mem_singleton.1 (pending_subset l hl)
    · intro henrolled
      have hmem := (h.enrolled i).2 ⟨w, hw, henrolled⟩
      change line ∈ if i ∈ r.subscribers then [line] else []
      rw [if_pos hmem]
      exact List.mem_singleton_self _
    · have hsight := (hg i w hw).2
      rw [InSight, hnil] at hsight
      exact hsight

theorem Sound.copy {line : String} (h : r.Sound) (hl : r.listener = .logged line) :
    Sound { r with listener := .broadcasting line r.subscribers } := by
  refine ⟨?_, h.distinct, h.enrolled, ?_⟩
  · have hheld := h.held
    rw [hand, hl] at hheld
    exact hheld
  · intro i w hw
    have hkept := h.kept i w hw
    rw [pending, hl] at hkept
    exact hkept

theorem Sound.idle {line : String} (h : r.Sound) (hl : r.listener = .broadcasting line []) :
    Sound { r with listener := .receiving } := by
  refine ⟨List.forall_mem_nil _, h.distinct, h.enrolled, ?_⟩
  intro i w hw
  have hkept := h.kept i w hw
  rw [pending, hl] at hkept
  exact hkept

theorem Sound.send {line : String} {left : List Nat} (h : r.Sound)
    (hl : r.listener = .broadcasting line (i :: left)) :
    Sound { r with
      listener := .broadcasting line left
      waits := Function.update r.waits i
        ((r.waits i).map fun w => { w with queue := w.queue ++ [line] }) } := by
  have hheld := h.held
  rw [hand, hl] at hheld
  refine ⟨hheld, h.distinct, ?_, ?_⟩
  · intro j
    rw [h.enrolled j]
    by_cases hj : j = i
    · rw [hj]
      cases hw : r.waits i with
      | none => simp
      | some w => simp
    · simp [Function.update_of_ne hj]
  · intro j w' hw'
    dsimp only at hw'
    by_cases hj : j = i
    · rw [hj] at hw' ⊢
      rw [Function.update_self] at hw'
      obtain ⟨w, hw, rfl⟩ := Option.map_eq_some_iff.1 hw'
      have hkept := h.kept i w hw
      rw [pending, hl] at hkept
      simp only [List.mem_cons, true_or, if_true] at hkept
      apply hkept.receive
      intro l hl
      exact List.mem_singleton.1 (pending_subset l hl)
    · rw [Function.update_of_ne hj] at hw'
      have hkept := h.kept j w' hw'
      rw [pending, hl] at hkept
      simp only [List.mem_cons, hj, false_or] at hkept
      exact hkept

theorem Sound.call (h : r.Sound) (hi : r.waits i = none) (pattern : String → Bool) :
    Sound { r with
      waits := Function.update r.waits i (some { pattern := pattern, due := r.logs }) } := by
  refine ⟨h.held, h.distinct, ?_, ?_⟩
  · intro j
    rw [h.enrolled j]
    by_cases hj : j = i
    · rw [hj]
      simp [hi, WaitPlace.enrolled]
    · simp [Function.update_of_ne hj]
  · intro j w' hw'
    dsimp only at hw'
    by_cases hj : j = i
    · rw [hj] at hw'
      rw [Function.update_self] at hw'
      cases hw'
      refine ⟨?_, ?_, ?_, ?_, ?_⟩
      · intro line hline
        rcases List.mem_append.1 hline with hline | hline
        · rw [List.append_nil] at hline
          exact logs_subset line hline
        · exact h.held line (pending_subset line hline)
      · intro _ hawaits
        apply hawaits.mono
        intro line hline
        dsimp only at hline
        exact List.mem_append_left _ (List.mem_append_left _ hline)
      · intro left stale hp
        cases hp
      · intro o ho
        cases ho
      · intro ho
        cases ho
    · rw [Function.update_of_ne hj] at hw'
      exact h.kept j w' hw'

theorem Sound.rollCall {a : WaitAct} {w' : UdpWait} (h : r.Sound) (hw : r.waits i = some w)
    (hm : w.Moved r.logs a w') :
    (r.rollCall i a).Nodup ∧ (∀ j, j ≠ i → (j ∈ r.rollCall i a ↔ j ∈ r.subscribers)) ∧
      (i ∈ r.rollCall i a ↔ w'.place.enrolled = true) := by
  have henrolled : i ∈ r.subscribers ↔ w.place.enrolled = true := by
    rw [h.enrolled i, hw]
    simp
  rcases UdpWait.moved_enrolled hm with ⟨rfl, hno, hyes⟩ | ⟨rfl, hyes, hno⟩ | ⟨hs, hl, hyes, hyes'⟩
  · have hfresh : i ∉ r.subscribers := by
      rw [henrolled, hno]
      exact Bool.false_ne_true
    refine ⟨h.distinct.append (List.nodup_singleton i) ?_, ?_, ?_⟩
    · intro j hj hi
      rw [List.mem_singleton.1 hi] at hj
      exact hfresh hj
    · intro j hj
      simp [UdpReceiver.rollCall, hj]
    · simp [UdpReceiver.rollCall, hyes]
  · have hmem := henrolled.2 hyes
    simp only [UdpReceiver.rollCall, if_pos hmem]
    refine ⟨h.distinct.erase i, ?_, ?_⟩
    · intro j hj
      exact List.mem_erase_of_ne hj
    · rw [hno]
      exact iff_of_false h.distinct.not_mem_erase Bool.false_ne_true
  · have hroll : r.rollCall i a = r.subscribers := by
      cases a with
      | subscribe => exact absurd rfl hs
      | leave => exact absurd rfl hl
      | _ => rfl
    rw [hroll]
    refine ⟨h.distinct, fun _ _ => Iff.rfl, ?_⟩
    rw [henrolled, hyes, hyes']

theorem Sound.wait {a : WaitAct} {w' : UdpWait} (h : r.Sound) (hw : r.waits i = some w)
    (ha : w.advance r.logs a = some w')
    (hg : a = .check ∨ a = .empty → w.late = true → ¬ r.InSight i w) :
    Sound { r with
      subscribers := r.rollCall i a
      waits := Function.update r.waits i (some w') } := by
  have hm := UdpWait.moved_of_advance ha
  obtain ⟨hdistinct, hothers, hown⟩ := h.rollCall hw hm
  have hpending (j : Nat) := pending_subset (r := { r with
    subscribers := r.rollCall i a
    waits := Function.update r.waits i (some w') }) (i := j)
  refine ⟨h.held, hdistinct, ?_, ?_⟩
  · intro j
    by_cases hj : j = i
    · rw [hj]
      simp [hown]
    · rw [hothers j hj, h.enrolled j]
      simp [Function.update_of_ne hj]
  · intro j u hu
    dsimp only at hu
    by_cases hj : j = i
    · rw [hj] at hu ⊢
      rw [Function.update_self] at hu
      cases hu
      apply ((h.kept i w hw).moved hm hg).widen
      · intro ho
        have hlive := UdpWait.moved_stays hm ho
        intro line hline
        unfold pending at hline ⊢
        dsimp only
        split at hline
        · cases hline
        · rw [if_pos (hown.2 hlive)]
          split at hline
          · exact hline
          · cases hline
        · exact hline
      · intro line hline
        exact h.held line (hpending i line hline)
    · rw [Function.update_of_ne hj] at hu
      rw [pending_with (hothers j hj).symm]
      exact h.kept j u hu

theorem Sound.step {act : UdpAct} (h : r.Sound) (hg : r.Guarded act)
    (hs : r.step act = some r') : r'.Sound := by
  cases act with
  | packet decoded =>
    rw [UdpReceiver.step] at hs
    split at hs
    · split at hs
      · cases hs
        exact h
      · cases hs
        exact h.append ‹_› (hg ‹_›)
    · cases hs
  | copySubscribers =>
    rw [UdpReceiver.step] at hs
    split at hs
    · cases hs
      exact h.copy ‹_›
    · cases hs
  | send =>
    rw [UdpReceiver.step] at hs
    split at hs
    · cases hs
      exact h.send ‹_›
    · cases hs
      exact h.idle ‹_›
    · cases hs
  | call i pattern =>
    rw [UdpReceiver.step] at hs
    split at hs
    · cases hs
      exact h.call ‹_› pattern
    · cases hs
  | wait i a =>
    rw [UdpReceiver.step] at hs
    split at hs
    · rename_i w hw
      obtain ⟨w', ha, rfl⟩ := Option.map_eq_some_iff.1 hs
      apply h.wait hw ha
      intro hor
      rcases hor with rfl | rfl
      · exact hg w hw
      · exact hg w hw
    · cases hs

theorem step_deadline {act : UdpAct} (hs : r.step act = some r') (i : Nat) :
    UdpWait.deadline.Step (act.states i) (r.waits i) (r'.waits i) := by
  cases act with
  | packet decoded =>
    rw [UdpReceiver.step] at hs
    split at hs
    · split at hs
      · cases hs
        exact .refl _
      · cases hs
        exact .map _ (fun _ => UdpWait.hear_late decoded) (fun _ => UdpWait.hear_toGo decoded) _
    · cases hs
  | copySubscribers =>
    rw [UdpReceiver.step] at hs
    split at hs
    · cases hs
      exact .refl _
    · cases hs
  | send =>
    rw [UdpReceiver.step] at hs
    split at hs
    · rename_i line j left _
      cases hs
      dsimp only
      by_cases hj : i = j
      · subst hj
        rw [Function.update_self]
        exact .map (fun w : UdpWait => { w with queue := w.queue ++ [line] }) (fun _ => rfl)
          (fun _ => rfl) _
      · rw [Function.update_of_ne hj]
        exact .refl _
    · cases hs
      exact .refl _
    · cases hs
  | call j pattern =>
    rw [UdpReceiver.step] at hs
    split at hs
    · rename_i hj
      cases hs
      dsimp only
      by_cases hij : i = j
      · subst hij
        rw [Function.update_self, hj]
        exact .made rfl
      · rw [Function.update_of_ne hij]
        exact .refl _
    · cases hs
  | wait j a =>
    rw [UdpReceiver.step] at hs
    split at hs
    · rename_i u hu
      obtain ⟨u', ha, rfl⟩ := Option.map_eq_some_iff.1 hs
      dsimp only
      by_cases hj : i = j
      · subst hj
        rw [Function.update_self, hu, UdpAct.states, beq_self_eq_true, Bool.true_and]
        exact UdpWait.deadline_moved (UdpWait.moved_of_advance ha)
      · rw [Function.update_of_ne hj, UdpAct.states, beq_false_of_ne (Ne.symm hj), Bool.false_and]
        exact .refl _
    · cases hs

theorem run_prompt (h : Run step allowed {} acts r) : r.Prompt := by
  intro i w hw hlate
  have hwatched := Deadline.watched_run waits UdpAct.states
    (fun ht => step_deadline ht) h (fun i w hw => by cases hw)
  have hbound := hwatched i w hw hlate
  constructor
  · intro hdone
    obtain ⟨a, ha, hadvance⟩ := UdpWait.advances r.logs hlate hbound hdone
    apply Exists.intro a
    constructor
    · simpa [UdpAct.states] using ha
    · rw [UdpReceiver.step, hw]
      simpa using hadvance
  · intro acts r' hrun
    exact Deadline.overdue_run waits UdpAct.states (fun ht => step_deadline ht) hrun
      ⟨w, hw, hlate, hbound⟩

theorem sound_start : Sound {} where
  held := List.forall_mem_nil _
  distinct := .nil
  enrolled i := by simp
  kept i w hw := by cases hw

end
end UdpReceiver

def seesBoot (line : String) : Bool := line == "boot ok"

/-- A line comes in between the start of a scan and its next step. -/
def brokenScan : List UdpAct :=
  [.call 0 seesBoot, .wait 0 .subscribe, .wait 0 .openScan, .packet "boot ok", .wait 0 .scanNext]

/-- The deadline passes while the line stands in the queue. -/
def lateCheck : List UdpAct :=
  [.call 0 seesBoot, .wait 0 .subscribe, .wait 0 .openScan, .wait 0 .scanNext, .packet "boot ok",
    .copySubscribers, .send, .wait 0 .elapse, .wait 0 .check]

/-- A call finds nothing in the history and gets its line from the queue. -/
def servedWait : List UdpAct :=
  [.call 0 seesBoot, .wait 0 .subscribe, .wait 0 .openScan, .wait 0 .scanNext, .packet "boot ok",
    .copySubscribers, .send, .wait 0 .check, .wait 0 .take, .wait 0 .leave]

end MesCore

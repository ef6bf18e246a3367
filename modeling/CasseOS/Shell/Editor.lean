import CasseOS.Lib.Run
import CasseOS.Shell.CommandLine
import Mathlib.Data.List.InsertIdx

/-! # The abstract line editor

`Line` is a text with a cursor and `press` what a key does to it. The buffer,
the length and the cursor of `command_line.c` refine it: `lineOf` reads the
line out of a well-formed state, and `handle_cases` says everything one call of
`handle_command_line` can do. -/

namespace CasseOS.Shell
open CInt Keyboard Screen

structure Line where
  text : List UInt8
  cursor : ℕ
  deriving DecidableEq, Repr

def emptyLine : Line := ⟨[], 0⟩

/- Keys that stand for their own character. -/
def Printable (code : Keycode) : Prop := 0x20 ≤ code ∧ code ≤ 0x7E

instance (code : Keycode) : Decidable (Printable code) := inferInstanceAs (Decidable (_ ∧ _))

def press (l : Line) (code : Keycode) : Line :=
  if code = kcBackspace then
    if l.cursor = 0 then l else ⟨l.text.eraseIdx (l.cursor - 1), l.cursor - 1⟩
  else if code = kcDelete then ⟨l.text.eraseIdx l.cursor, l.cursor⟩
  else if code = kcLeft then ⟨l.text, l.cursor - 1⟩
  else if code = kcRight then ⟨l.text, min (l.cursor + 1) l.text.length⟩
  else if code = kcHome then ⟨l.text, 0⟩
  else if code = kcEnd then ⟨l.text, l.text.length⟩
  else if Printable code ∧ l.text.length ≠ 1999 then
    ⟨l.text.insertIdx l.cursor code.toUInt8, l.cursor + 1⟩
  else l

def textOf (command : ℕ → UInt8) (len : ℕ) : List UInt8 := (List.range len).map command

def lineOf (st : CmdState) : Line := ⟨textOf st.command st.cmdLen, st.cmdCursor⟩

structure WellFormed (st : CmdState) : Prop where
  cursor_le : st.cmdCursor ≤ st.cmdLen
  len_le : st.cmdLen ≤ 1999
  noNul : ∀ i < st.cmdLen, st.command i ≠ 0
  terminated : st.command st.cmdLen = 0

/-! ### The shifting loops -/

theorem load_of_lt {command : ℕ → UInt8} {i : ℕ} (h : i < maxCommandLength) :
    load command i = some (command i) := if_pos h

theorem store_of_lt {command : ℕ → UInt8} {i : ℕ} (c : UInt8) (h : i < maxCommandLength) :
    store command i c = some (Function.update command i c) := if_pos h

/- The buffer with the bytes of `[i, i + n]` moved down by one. -/
def shiftDown (command : ℕ → UInt8) (i n : ℕ) (k : ℕ) : UInt8 :=
  if i ≤ k ∧ k < i + n then command (k + 1) else command k

/- The buffer with the bytes of `[i, i + n)` moved up by one. -/
def shiftUp (command : ℕ → UInt8) (i n : ℕ) (k : ℕ) : UInt8 :=
  if i < k ∧ k ≤ i + n then command (k - 1) else command k

theorem deleteLoop_eq (n i : ℕ) (command : ℕ → UInt8) (h : i + n < maxCommandLength) :
    deleteLoop n i command = some (shiftDown command i n) := by
  induction n generalizing i command with
  | zero =>
    have he : shiftDown command i 0 = command := by
      funext k
      exact if_neg (by omega)
    rw [he]
    rfl
  | succ n ih =>
    have he : shiftDown (Function.update command i (command (i + 1))) (i + 1) n =
        shiftDown command i (n + 1) := by
      funext k
      simp only [shiftDown, Function.update_apply]
      by_cases hk : k = i
      · subst hk
        rw [if_neg (by omega), if_pos rfl, if_pos (by omega)]
      · by_cases hin : i + 1 ≤ k ∧ k < i + 1 + n
        · rw [if_pos hin, if_neg (by omega), if_pos (by omega)]
        · rw [if_neg hin, if_neg hk, if_neg (by omega)]
    simp only [deleteLoop, load_of_lt (by omega : i + 1 < maxCommandLength),
      store_of_lt _ (by omega : i < maxCommandLength), Option.bind_eq_bind, Option.bind_some]
    rw [ih (i + 1) _ (by omega), he]

theorem insertLoop_eq (n i : ℕ) (command : ℕ → UInt8) (h : i + n < maxCommandLength) :
    insertLoop n i command = some (shiftUp command i n) := by
  induction n generalizing command with
  | zero =>
    have he : shiftUp command i 0 = command := by
      funext k
      exact if_neg (by omega)
    rw [he]
    rfl
  | succ n ih =>
    have he : shiftUp (Function.update command (i + n + 1) (command (i + n))) i n =
        shiftUp command i (n + 1) := by
      funext k
      simp only [shiftUp, Function.update_apply]
      by_cases hk : k = i + n + 1
      · subst hk
        rw [if_neg (by omega), if_pos rfl, if_pos (by omega)]
        rfl
      · by_cases hin : i < k ∧ k ≤ i + n
        · rw [if_pos hin, if_neg (by omega), if_pos (by omega)]
        · rw [if_neg hin, if_neg hk, if_neg (by omega)]
    simp only [insertLoop, load_of_lt (by omega : i + n < maxCommandLength),
      store_of_lt _ (by omega : i + n + 1 < maxCommandLength), Option.bind_eq_bind,
      Option.bind_some]
    rw [ih _ (by omega), he]

/-! ### Removing and inserting one character -/

/- The state after the character at `p` was removed, before the repaint. -/
def erased (st : CmdState) (p : ℕ) : CmdState :=
  {st with
    command := shiftDown st.command p (st.cmdLen - p), cmdLen := st.cmdLen - 1, cmdCursor := p}

/- The state after `c` was inserted at the cursor, before the repaint. -/
def inserted (st : CmdState) (c : UInt8) : CmdState :=
  {st with
    command := Function.update (Function.update
      (shiftUp st.command st.cmdCursor (st.cmdLen - st.cmdCursor)) st.cmdCursor c) (st.cmdLen + 1) 0
    cmdLen := st.cmdLen + 1, cmdCursor := st.cmdCursor + 1}

section Edits
variable {st : CmdState} {p : ℕ} {c : UInt8}

theorem erased_command (hp : p < st.cmdLen) {k : ℕ} (hk : k < st.cmdLen) :
    (erased st p).command k = if k < p then st.command k else st.command (k + 1) := by
  simp only [erased, shiftDown]
  by_cases hlt : k < p
  · rw [if_neg (by omega), if_pos hlt]
  · rw [if_pos (by omega), if_neg hlt]

theorem inserted_command (hcur : st.cmdCursor ≤ st.cmdLen) {k : ℕ} (hk : k ≤ st.cmdLen) :
    (inserted st c).command k = if k < st.cmdCursor then st.command k
      else if k = st.cmdCursor then c else st.command (k - 1) := by
  simp only [inserted, shiftUp, Function.update_apply]
  rw [if_neg (by omega : ¬k = st.cmdLen + 1)]
  by_cases hlt : k < st.cmdCursor
  · rw [if_neg (by omega), if_neg (by omega), if_pos hlt]
  · rw [if_neg hlt]
    by_cases heq : k = st.cmdCursor
    · rw [if_pos heq, if_pos heq]
    · rw [if_neg heq, if_neg heq, if_pos (by omega)]

theorem erased_wellFormed (h : WellFormed st) (hp : p < st.cmdLen) : WellFormed (erased st p) := by
  have hlen : (erased st p).cmdLen = st.cmdLen - 1 := rfl
  have hle := h.len_le
  refine ⟨?_, ?_, ?_, ?_⟩
  · show p ≤ st.cmdLen - 1
    omega
  · omega
  · intro i hi
    rw [erased_command hp (by omega)]
    split
    · exact h.noNul i (by omega)
    · exact h.noNul (i + 1) (by omega)
  · have hz : st.cmdLen - 1 + 1 = st.cmdLen := by omega
    rw [hlen, erased_command hp (by omega), if_neg (by omega), hz]
    exact h.terminated

theorem inserted_wellFormed (h : WellFormed st) (hlen : st.cmdLen < 1999) (hc : c ≠ 0) :
    WellFormed (inserted st c) := by
  have hcur := h.cursor_le
  refine ⟨?_, ?_, ?_, ?_⟩
  · show st.cmdCursor + 1 ≤ st.cmdLen + 1
    omega
  · show st.cmdLen + 1 ≤ 1999
    omega
  · intro i hi
    replace hi : i < st.cmdLen + 1 := hi
    rw [inserted_command hcur (by omega)]
    split
    · exact h.noNul i (by omega)
    · split
      · exact hc
      · exact h.noNul (i - 1) (by omega)
  · exact Function.update_self ..

theorem erased_line (hp : p < st.cmdLen) :
    lineOf (erased st p) = ⟨(lineOf st).text.eraseIdx p, p⟩ := by
  have hlen : (erased st p).cmdLen = st.cmdLen - 1 := rfl
  have htext : textOf (erased st p).command (st.cmdLen - 1) =
      (textOf st.command st.cmdLen).eraseIdx p := by
    apply List.ext_getElem
    · rw [List.length_eraseIdx_of_lt (by simpa [textOf] using hp)]
      simp [textOf]
    · intro i hi _
      replace hi : i < st.cmdLen - 1 := by simpa [textOf] using hi
      rw [List.getElem_eraseIdx]
      simp only [textOf, List.getElem_map, List.getElem_range]
      rw [erased_command hp (by omega)]
      split <;> rfl
  simp only [lineOf, hlen, htext]
  rfl

theorem inserted_line (hcur : st.cmdCursor ≤ st.cmdLen) :
    lineOf (inserted st c) =
      ⟨(lineOf st).text.insertIdx st.cmdCursor c, st.cmdCursor + 1⟩ := by
  have hlen : (inserted st c).cmdLen = st.cmdLen + 1 := rfl
  have htext : textOf (inserted st c).command (st.cmdLen + 1) =
      (textOf st.command st.cmdLen).insertIdx st.cmdCursor c := by
    apply List.ext_getElem
    · rw [List.length_insertIdx_of_le_length (by simpa [textOf] using hcur)]
      simp [textOf]
    · intro i hi _
      replace hi : i < st.cmdLen + 1 := by simpa [textOf] using hi
      rw [List.getElem_insertIdx]
      simp only [textOf, List.getElem_map, List.getElem_range]
      rw [inserted_command hcur (by omega)]
      split
      · rfl
      · split <;> rfl
  simp only [lineOf, hlen, htext]
  rfl

end Edits

/-! ### One call of `handle_command_line` -/

theorem commandString_eq {st : CmdState} (h : WellFormed st) :
    commandString st.command = some (lineOf st).text := by
  have hle := h.len_le
  obtain ⟨n, hn⟩ : ∃ n, maxCommandLength = st.cmdLen + (n + 1) :=
    ⟨1999 - st.cmdLen, by change 2000 = _; omega⟩
  have hbytes : ∃ rest, (List.range maxCommandLength).map st.command =
      textOf st.command st.cmdLen ++ 0 :: rest := by
    refine ⟨((List.range n).map Nat.succ).map fun k => st.command (st.cmdLen + k), ?_⟩
    rw [hn, List.range_add, List.map_append, List.range_succ_eq_map, List.map_cons, List.map_cons,
      Nat.add_zero, h.terminated, List.map_map]
    rfl
  obtain ⟨rest, hrest⟩ := hbytes
  have hmem : (0 : UInt8) ∈ textOf st.command st.cmdLen ++ 0 :: rest :=
    List.mem_append_right _ (List.mem_cons_self ..)
  have hpos : ∀ b ∈ textOf st.command st.cmdLen, decide (b ≠ 0) = true := by
    intro b hb
    obtain ⟨i, hi, rfl⟩ := List.mem_map.mp hb
    exact decide_eq_true (h.noNul i (List.mem_range.mp hi))
  simp only [commandString, hrest, if_pos hmem, cstr]
  rw [List.takeWhile_append_of_pos hpos]
  simp [lineOf]

/-- The console after a repaint of `text` (`command_line.c:10-28`). -/
def repainted (t : TextMode) (st : CmdState) (text : List UInt8) (previousLen : ℕ) : Console :=
  let baseOffset := wrap32 (st.cmdStartOffset * 2)
  let (row, s) := getVgaOffsetRow t st.console baseOffset
  let (col, s) := getVgaOffsetCol t s baseOffset
  let s := kprintAt t s text col row
  let s := blankLoop t (previousLen - st.cmdLen) (wrap32 ((st.cmdStartOffset + st.cmdLen) * 2)) s
  setCursorOffset s (wrap32 ((st.cmdStartOffset + st.cmdCursor) * 2))

theorem refreshCommandVisual_eq (t : TextMode) {st : CmdState} (h : WellFormed st)
    (previousLen : ℕ) : refreshCommandVisual t st previousLen =
      some {st with console := repainted t st (lineOf st).text previousLen} := by
  simp only [refreshCommandVisual, commandString_eq h, Option.bind_eq_bind, Option.bind_some]
  rfl

theorem printable_lt {code : Keycode} : Printable code ↔ 0x20 ≤ code ∧ code < 0x7F := by
  unfold Printable
  rw [UInt16.le_iff_toNat_le, UInt16.le_iff_toNat_le, UInt16.lt_iff_toNat_lt]
  show 32 ≤ code.toNat ∧ code.toNat ≤ 126 ↔ 32 ≤ code.toNat ∧ code.toNat < 127
  omega

theorem printable_toNat {code : Keycode} (h : Printable code) : 32 ≤ code.toUInt8.toNat := by
  obtain ⟨h1, h2⟩ := h
  rw [UInt16.le_iff_toNat_le] at h1 h2
  replace h1 : 32 ≤ code.toNat := h1
  replace h2 : code.toNat ≤ 126 := h2
  rw [UInt16.toNat_toUInt8]
  omega

theorem printable_toUInt8 {code : Keycode} (h : Printable code) : code.toUInt8 ≠ 0 := by
  intro hz
  have hn := printable_toNat h
  rw [hz] at hn
  exact absurd hn (by decide)

theorem printable_newline {code : Keycode} (h : Printable code) : newline ≠ code.toUInt8 := by
  intro hz
  have hn := printable_toNat h
  rw [← hz] at hn
  exact absurd hn (by decide)

/- What a call of `handle_command_line` does to a well-formed state, and what
the abstract editor does there. -/
inductive Handled (t : TextMode) (st : CmdState) (code : Keycode) :
    Bool × CmdState → Prop where
  | enter (hc : code = kcEnter) (hp : press (lineOf st) code = lineOf st) :
      Handled t st code (true, st)
  | ignored (hc : code ≠ kcEnter) (hp : press (lineOf st) code = lineOf st) :
      Handled t st code (false, st)
  | moved (hc : code ≠ kcEnter) (p : ℕ) (hle : p ≤ st.cmdLen)
      (hp : press (lineOf st) code = ⟨(lineOf st).text, p⟩) :
      Handled t st code (false, showCursor {st with cmdCursor := p})
  | erased (hc : code ≠ kcEnter) (p : ℕ) (hlt : p < st.cmdLen)
      (hp : press (lineOf st) code = ⟨(lineOf st).text.eraseIdx p, p⟩) :
      Handled t st code (false, {erased st p with
        console := repainted t (erased st p) ((lineOf st).text.eraseIdx p) st.cmdLen})
  | inserted (hc : code ≠ kcEnter) (hpr : Printable code) (hlen : st.cmdLen < 1999)
      (hp : press (lineOf st) code =
        ⟨(lineOf st).text.insertIdx st.cmdCursor code.toUInt8, st.cmdCursor + 1⟩) :
      Handled t st code (false, {inserted st code.toUInt8 with
        console := repainted t (inserted st code.toUInt8)
          ((lineOf st).text.insertIdx st.cmdCursor code.toUInt8) st.cmdLen})

theorem length_lineOf (st : CmdState) : (lineOf st).text.length = st.cmdLen := by
  simp [lineOf, textOf]

theorem deleteAt_refresh (t : TextMode) {st : CmdState} (h : WellFormed st) {p : ℕ}
    (hp : p < st.cmdLen) :
    ((deleteAt st.command st.cmdLen p).bind fun command =>
      refreshCommandVisual t
        ⟨command, st.cmdStartOffset, p, if 0 < st.cmdLen then st.cmdLen - 1 else st.cmdLen,
          st.console⟩ st.cmdLen) =
      some {erased st p with
        console := repainted t (erased st p) ((lineOf st).text.eraseIdx p) st.cmdLen} := by
  have hle := h.len_le
  have hbound : p + (st.cmdLen - p) < maxCommandLength := by
    show _ < 2000
    omega
  have hwf := erased_wellFormed h hp
  have href := refreshCommandVisual_eq t hwf st.cmdLen
  rw [erased_line hp] at href
  rw [deleteAt, deleteLoop_eq _ _ _ hbound, Option.bind_some, if_pos (by omega)]
  exact href

theorem insertAt_refresh (t : TextMode) {st : CmdState} (h : WellFormed st) (c : UInt8)
    (hlen : st.cmdLen < 1999) (hc : c ≠ 0) :
    ((insertAt st.command st.cmdLen st.cmdCursor c).bind fun command =>
      (store command (u16 (st.cmdLen + 1)) 0).bind fun command =>
        refreshCommandVisual t
          ⟨command, st.cmdStartOffset, u16 (st.cmdCursor + 1), u16 (st.cmdLen + 1), st.console⟩
          st.cmdLen) =
      some {inserted st c with
        console := repainted t (inserted st c)
          ((lineOf st).text.insertIdx st.cmdCursor c) st.cmdLen} := by
  have hcur := h.cursor_le
  have hmax : maxCommandLength = 2000 := rfl
  have hbound : st.cmdCursor + (st.cmdLen - st.cmdCursor) < maxCommandLength := by omega
  have href := refreshCommandVisual_eq t (inserted_wellFormed h hlen hc) st.cmdLen
  rw [inserted_line hcur] at href
  rw [u16_of_lt (by omega), u16_of_lt (by omega)]
  simp only [insertAt, insertLoop_eq _ _ _ hbound, Option.bind_eq_bind, Option.bind_some,
    store_of_lt _ (by omega : st.cmdCursor < maxCommandLength),
    store_of_lt _ (by omega : st.cmdLen + 1 < maxCommandLength)]
  exact href

section Keys
variable (t : TextMode) {st : CmdState}

theorem handle_enter (h : WellFormed st) :
    ∃ r, handleCommandLine t st kcEnter = some r ∧ Handled t st kcEnter r := by
  have hst : Function.update st.command st.cmdLen 0 = st.command := by
    rw [← h.terminated, Function.update_eq_self]
  have hlt : st.cmdLen < maxCommandLength := Nat.lt_succ_of_le h.len_le
  refine ⟨_, ?_, .enter rfl rfl⟩
  unfold handleCommandLine
  simp only [if_pos, store_of_lt _ hlt, hst]
  rfl

theorem handle_backspace (h : WellFormed st) :
    ∃ r, handleCommandLine t st kcBackspace = some r ∧ Handled t st kcBackspace r := by
  have hcur := h.cursor_le
  have hcursor : (lineOf st).cursor = st.cmdCursor := rfl
  have hne : kcBackspace ≠ kcEnter := by decide
  unfold handleCommandLine
  simp only [if_neg hne, if_pos, Option.bind_eq_bind]
  by_cases hzero : 0 < st.cmdCursor
  · have hp : press (lineOf st) kcBackspace =
        ⟨(lineOf st).text.eraseIdx (st.cmdCursor - 1), st.cmdCursor - 1⟩ := by
      rw [press, if_pos rfl, hcursor, if_neg (by omega)]
    have hdel := deleteAt_refresh t h (by omega : st.cmdCursor - 1 < st.cmdLen)
    refine ⟨_, ?_, .erased hne (st.cmdCursor - 1) (by omega) hp⟩
    rw [if_pos hzero, ← Option.bind_assoc, hdel]
    rfl
  · have hp : press (lineOf st) kcBackspace = lineOf st := by
      rw [press, if_pos rfl, hcursor, if_pos (by omega)]
    refine ⟨_, ?_, .ignored hne hp⟩
    rw [if_neg hzero]
    rfl

theorem handle_delete (h : WellFormed st) :
    ∃ r, handleCommandLine t st kcDelete = some r ∧ Handled t st kcDelete r := by
  have hlen := length_lineOf st
  have hcursor : (lineOf st).cursor = st.cmdCursor := rfl
  have hne : kcDelete ≠ kcEnter := by decide
  have hback : kcDelete ≠ kcBackspace := by decide
  have hp : press (lineOf st) kcDelete =
      ⟨(lineOf st).text.eraseIdx st.cmdCursor, st.cmdCursor⟩ := by
    rw [press, if_neg hback, if_pos rfl, hcursor]
  unfold handleCommandLine
  simp only [if_neg hne, if_neg hback, if_pos, Option.bind_eq_bind]
  by_cases hend : st.cmdCursor < st.cmdLen
  · have hdel := deleteAt_refresh t h hend
    refine ⟨_, ?_, .erased hne st.cmdCursor hend hp⟩
    rw [if_pos hend, ← Option.bind_assoc, hdel]
    rfl
  · rw [List.eraseIdx_of_length_le (by omega)] at hp
    refine ⟨_, ?_, .ignored hne hp⟩
    rw [if_neg hend]
    rfl

/- The four keys that only move the cursor. -/
theorem handle_move (h : WellFormed st) {code : Keycode}
    (hc : code = kcLeft ∨ code = kcRight ∨ code = kcHome ∨ code = kcEnd) :
    ∃ r, handleCommandLine t st code = some r ∧ Handled t st code r := by
  have hcur := h.cursor_le
  have hlen := length_lineOf st
  rcases hc with rfl | rfl | rfl | rfl
  · refine ⟨_, ?_, .moved (by decide) (st.cmdCursor - 1) (by omega) rfl⟩
    have hst : (if 0 < st.cmdCursor then {st with cmdCursor := st.cmdCursor - 1} else st) =
        {st with cmdCursor := st.cmdCursor - 1} := by
      split
      · rfl
      · have hz : st.cmdCursor - 1 = st.cmdCursor := by omega
        rw [hz]
    exact congrArg (fun st => some (false, showCursor st)) hst
  · have hp : press (lineOf st) kcRight = ⟨(lineOf st).text, min (st.cmdCursor + 1) st.cmdLen⟩ := by
      rw [← hlen]
      rfl
    refine ⟨_, ?_, .moved (by decide) _ (Nat.min_le_right _ _) hp⟩
    have hst : (if st.cmdCursor < st.cmdLen then {st with cmdCursor := u16 (st.cmdCursor + 1)}
        else st) = {st with cmdCursor := min (st.cmdCursor + 1) st.cmdLen} := by
      have hle := h.len_le
      split
      · rw [u16_of_lt (by omega), Nat.min_eq_left (by omega)]
      · have hz : min (st.cmdCursor + 1) st.cmdLen = st.cmdCursor := by omega
        rw [hz]
    exact congrArg (fun st => some (false, showCursor st)) hst
  · exact ⟨_, rfl, .moved (by decide) 0 (Nat.zero_le _) rfl⟩
  · have hp : press (lineOf st) kcEnd = ⟨(lineOf st).text, st.cmdLen⟩ := by
      rw [← hlen]
      rfl
    exact ⟨_, rfl, .moved (by decide) st.cmdLen le_rfl hp⟩

/- Every other key is inserted when it is printable and there is room. -/
theorem handle_other (h : WellFormed st) {code : Keycode} (henter : code ≠ kcEnter)
    (hback : code ≠ kcBackspace) (hdelete : code ≠ kcDelete) (hleft : code ≠ kcLeft)
    (hright : code ≠ kcRight) (hhome : code ≠ kcHome) (hend : code ≠ kcEnd) :
    ∃ r, handleCommandLine t st code = some r ∧ Handled t st code r := by
  have hle := h.len_le
  have hmax : maxCommandLength - 1 = 1999 := rfl
  have hp : press (lineOf st) code = if Printable code ∧ st.cmdLen ≠ 1999 then
      ⟨(lineOf st).text.insertIdx st.cmdCursor code.toUInt8, st.cmdCursor + 1⟩ else lineOf st := by
    rw [press, if_neg hback, if_neg hdelete, if_neg hleft, if_neg hright, if_neg hhome,
      if_neg hend, length_lineOf]
    rfl
  unfold handleCommandLine
  simp only [if_neg henter, if_neg hback, if_neg hdelete, if_neg hleft, if_neg hright,
    if_neg hhome, if_neg hend, Option.bind_eq_bind]
  by_cases hprint : Printable code
  · rw [if_pos (printable_lt.mp hprint)]
    by_cases hfull : maxCommandLength - 1 ≤ st.cmdLen
    · refine ⟨_, ?_, .ignored henter (hp.trans (if_neg (by omega)))⟩
      rw [if_pos hfull]
      rfl
    · have hins := insertAt_refresh t h code.toUInt8 (by omega) (printable_toUInt8 hprint)
      refine ⟨_, ?_, .inserted henter hprint (by omega) (hp.trans (if_pos ⟨hprint, by omega⟩))⟩
      simp only [← Option.bind_assoc] at hins ⊢
      rw [if_neg hfull, hins]
      rfl
  · refine ⟨_, ?_, .ignored henter (hp.trans (if_neg fun hand => hprint hand.1))⟩
    rw [if_neg fun hand => hprint (printable_lt.mpr hand)]
    rfl

theorem handleCommandLine_spec (h : WellFormed st) (code : Keycode) :
    ∃ r, handleCommandLine t st code = some r ∧ Handled t st code r := by
  by_cases henter : code = kcEnter
  · exact henter ▸ handle_enter t h
  by_cases hback : code = kcBackspace
  · exact hback ▸ handle_backspace t h
  by_cases hdelete : code = kcDelete
  · exact hdelete ▸ handle_delete t h
  by_cases hmove : code = kcLeft ∨ code = kcRight ∨ code = kcHome ∨ code = kcEnd
  · exact handle_move t h hmove
  · push Not at hmove
    obtain ⟨hleft, hright, hhome, hend⟩ := hmove
    exact handle_other t h henter hback hdelete hleft hright hhome hend

end Keys

/-! ### Refinement -/

section Effects
variable {t : TextMode} {st : CmdState} {code : Keycode} {r : Bool × CmdState}

theorem Handled.result_iff (hd : Handled t st code r) : r.1 = true ↔ code = kcEnter := by
  cases hd with
  | enter hc => exact ⟨fun _ => hc, fun _ => rfl⟩
  | ignored hc | moved hc | erased hc | inserted hc =>
    exact ⟨fun he => absurd he Bool.false_ne_true, fun he => absurd he hc⟩

theorem Handled.line (hd : Handled t st code r) (h : WellFormed st) :
    lineOf r.2 = press (lineOf st) code := by
  cases hd with
  | enter _ hp => exact hp.symm
  | ignored _ hp => exact hp.symm
  | moved _ p _ hp => exact hp.symm
  | erased _ p hlt hp => exact (erased_line hlt).trans hp.symm
  | inserted _ _ _ hp => exact (inserted_line h.cursor_le).trans hp.symm

theorem Handled.wellFormed (hd : Handled t st code r) (h : WellFormed st) : WellFormed r.2 := by
  cases hd with
  | enter => exact h
  | ignored => exact h
  | moved _ p hle => exact ⟨hle, h.len_le, h.noNul, h.terminated⟩
  | erased _ p hlt =>
    have he := erased_wellFormed h hlt
    exact ⟨he.cursor_le, he.len_le, he.noNul, he.terminated⟩
  | inserted _ hpr hlen =>
    have hi := inserted_wellFormed h hlen (printable_toUInt8 hpr)
    exact ⟨hi.cursor_le, hi.len_le, hi.noNul, hi.terminated⟩

end Effects

theorem flushCommandLine_wellFormed (st : CmdState) : WellFormed (flushCommandLine st) :=
  ⟨le_rfl, Nat.zero_le _, fun i hi => absurd hi (Nat.not_lt_zero i),
    Function.update_self 0 0 st.command⟩

/- One key, its result dropped. -/
def keyStep (t : TextMode) (st : CmdState) (code : Keycode) : Option CmdState :=
  (handleCommandLine t st code).map Prod.snd

theorem keyStep_run (t : TextMode) (keys : List Keycode) {st : CmdState} (h : WellFormed st) :
    ∃ st', Run.exec (keyStep t) st keys = some st' ∧ WellFormed st' ∧
      lineOf st' = keys.foldl press (lineOf st) := by
  induction keys generalizing st with
  | nil => exact ⟨st, rfl, h, rfl⟩
  | cons code keys ih =>
    obtain ⟨r, hr, hd⟩ := handleCommandLine_spec t h code
    obtain ⟨st', hrun, hwf, hline⟩ := ih (hd.wellFormed h)
    refine ⟨st', ?_, hwf, ?_⟩
    · simp only [Run.exec, keyStep, hr, Option.map_some, Option.bind_some]
      exact hrun
    · rw [hline, hd.line h, List.foldl_cons]

/-- The line editor refines the abstract one: after `flush_command_line` no
key faults, the state stays well formed and holds the line the keys edit, and
the next call returns true exactly on ENTER, which keeps the text. -/
theorem handleCommandLine_refines_press (t : TextMode) (st : CmdState) (keys : List Keycode) :
    ∃ st', Run.exec (keyStep t) (flushCommandLine st) keys = some st' ∧
      (st'.cmdCursor ≤ st'.cmdLen ∧ st'.cmdLen ≤ 1999) ∧
      (∀ i < st'.cmdLen, st'.command i ≠ 0) ∧ st'.command st'.cmdLen = 0 ∧
      lineOf st' = keys.foldl press emptyLine ∧
      ∀ code, ∃ r, handleCommandLine t st' code = some r ∧
        (r.1 = true ↔ code = kcEnter) ∧ (code = kcEnter → lineOf r.2 = lineOf st') := by
  obtain ⟨st', hrun, hwf, hline⟩ := keyStep_run t keys (flushCommandLine_wellFormed st)
  refine ⟨st', hrun, ⟨hwf.cursor_le, hwf.len_le⟩, hwf.noNul, hwf.terminated, hline, ?_⟩
  intro code
  obtain ⟨r, hr, hd⟩ := handleCommandLine_spec t hwf code
  refine ⟨r, hr, hd.result_iff, ?_⟩
  rintro rfl
  exact hd.line hwf

end CasseOS.Shell

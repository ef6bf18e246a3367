import Mathlib.Logic.Function.Basic
import Mathlib.Algebra.Order.Group.Nat
import Mathlib.Tactic.Ring
import Mathlib.Tactic.Common

/-! # Text on an endless page and a window on it

`Page` is text laid out on an endless page of `cols` columns. A grid is what a
terminal keeps: `rows * cols` cells addressed by one index, with a position,
scrolled up by one row when the position leaves the last row. `Window` relates
the two: the grid shows the last rows of the page. -/

namespace CasseOS.TextGrid

structure Page (V : Type*) where
  /-- `none` for a cell that was never written. -/
  cells : ℕ → ℕ → Option V
  row : ℕ
  col : ℕ

variable {V : Type*} [DecidableEq V]

def Page.empty : Page V := ⟨fun _ _ => none, 0, 0⟩

def Page.write (p : Page V) (c : V) : Page V :=
  {p with cells := fun r k => if r = p.row ∧ k = p.col then some c else p.cells r k}

omit [DecidableEq V] in
theorem Page.write_cells (p : Page V) (c : V) (r k : ℕ) :
    (p.write c).cells r k = if r = p.row ∧ k = p.col then some c else p.cells r k := rfl

def Page.newRow (p : Page V) : Page V := {p with row := p.row + 1, col := 0}

def Page.put (nl : V) (cols : ℕ) (p : Page V) (c : V) : Page V :=
  if c = nl then p.newRow
  else if p.col + 1 = cols then (p.write c).newRow
  else {p.write c with col := p.col + 1}

def layout (nl : V) (cols : ℕ) (text : List V) : Page V :=
  text.foldl (Page.put nl cols) Page.empty

/-! ### Grids -/

def scroll (blank : V) (cols rows : ℕ) (cell : ℕ → V) (k : ℕ) : V :=
  if k + cols < rows * cols then cell (k + cols) else blank

def advance (nl : V) (cols pos : ℕ) (c : V) : ℕ :=
  if c = nl then (pos / cols + 1) * cols else pos + 1

/- The position after a text, if nothing scrolls. -/
def advances (nl : V) (cols pos : ℕ) (text : List V) : ℕ := text.foldl (advance nl cols) pos

def write (nl : V) (cell : ℕ → V) (pos : ℕ) (c : V) : ℕ → V :=
  if c = nl then cell else Function.update cell pos c

/- Bring a position back on the grid, scrolling when it has left it. -/
def settle (blank : V) (cols rows : ℕ) (cell : ℕ → V) (pos : ℕ) : ℕ × (ℕ → V) :=
  if rows * cols ≤ pos then (pos - cols, scroll blank cols rows cell) else (pos, cell)

def put (nl blank : V) (cols rows : ℕ) (cell : ℕ → V) (pos : ℕ) (c : V) : ℕ × (ℕ → V) :=
  settle blank cols rows (write nl cell pos c) (advance nl cols pos c)

def puts (nl blank : V) (cols rows : ℕ) : (ℕ → V) → ℕ → List V → ℕ × (ℕ → V)
  | cell, pos, [] => (pos, cell)
  | cell, pos, c :: text =>
    puts nl blank cols rows (put nl blank cols rows cell pos c).2
      (put nl blank cols rows cell pos c).1 text

/-! ### Cell indices -/

theorem cell_div {cols k : ℕ} (r : ℕ) (hk : k < cols) : (r * cols + k) / cols = r := by
  rw [Nat.mul_comm, Nat.mul_add_div (Nat.lt_of_le_of_lt (Nat.zero_le _) hk), Nat.div_eq_of_lt hk,
    Nat.add_zero]

theorem cell_mod {cols k : ℕ} (r : ℕ) (hk : k < cols) : (r * cols + k) % cols = k := by
  rw [Nat.mul_comm, Nat.mul_add_mod, Nat.mod_eq_of_lt hk]

theorem cell_lt {cols rows r k : ℕ} (hr : r < rows) (hk : k < cols) :
    r * cols + k < rows * cols :=
  calc r * cols + k < r * cols + cols := Nat.add_lt_add_left hk _
    _ = (r + 1) * cols := (Nat.succ_mul r cols).symm
    _ ≤ rows * cols := Nat.mul_le_mul_right cols hr

theorem row_lt {cols rows pos : ℕ} (hp : pos < rows * cols) : pos / cols < rows :=
  Nat.div_lt_of_lt_mul (by rwa [Nat.mul_comm])

theorem cols_le {cols rows pos : ℕ} (hp : pos < rows * cols) : cols ≤ rows * cols :=
  calc cols = 1 * cols := (Nat.one_mul cols).symm
    _ ≤ rows * cols := Nat.mul_le_mul_right cols (Nat.lt_of_le_of_lt (Nat.zero_le _) (row_lt hp))

theorem advance_le (nl : V) {cols rows pos : ℕ} (c : V) (hp : pos < rows * cols) :
    advance nl cols pos c ≤ rows * cols := by
  unfold advance
  split
  · exact Nat.mul_le_mul_right cols (row_lt hp)
  · omega

theorem le_advance (nl : V) {cols : ℕ} (hc : 0 < cols) (pos : ℕ) (c : V) :
    pos ≤ advance nl cols pos c := by
  unfold advance
  split
  · have hdm := Nat.div_add_mod pos cols
    have hm := Nat.mod_lt pos hc
    rw [Nat.succ_mul, Nat.mul_comm]
    omega
  · exact Nat.le_succ pos

theorem le_advances (nl : V) {cols : ℕ} (hc : 0 < cols) (text : List V) (pos : ℕ) :
    pos ≤ advances nl cols pos text := by
  induction text generalizing pos with
  | nil => exact le_rfl
  | cons c text ih => exact (le_advance nl hc pos c).trans (ih _)

theorem put_lt {nl blank : V} {cols rows pos : ℕ} (cell : ℕ → V) (c : V)
    (hc : 0 < cols) (hp : pos < rows * cols) :
    (put nl blank cols rows cell pos c).1 < rows * cols := by
  have ha := advance_le nl c hp
  have hl := cols_le hp
  unfold put settle
  split <;> dsimp only <;> omega

/- A text without newlines that ends before the last cell is written in place. -/
theorem puts_of_fits {nl blank : V} {cols rows : ℕ} (text : List V) {cell : ℕ → V} {pos : ℕ}
    (hn : nl ∉ text) (hfit : pos + text.length < rows * cols) (k : ℕ) :
    (puts nl blank cols rows cell pos text).2 k =
      if pos ≤ k then (text[k - pos]?).getD (cell k) else cell k := by
  induction text generalizing cell pos with
  | nil => simp [puts]
  | cons c text ih =>
    rw [List.mem_cons, not_or] at hn
    rw [List.length_cons] at hfit
    have hc : ¬c = nl := fun he => hn.1 he.symm
    have hput : put nl blank cols rows cell pos c = (pos + 1, Function.update cell pos c) := by
      simp only [put, settle, advance, write, if_neg hc]
      rw [if_neg (by omega)]
    rw [puts, hput, ih hn.2 (by omega)]
    dsimp only
    rw [Function.update_apply]
    by_cases hk : k = pos
    · subst hk
      rw [if_neg (by omega), if_pos rfl, if_pos le_rfl, Nat.sub_self]
      rfl
    · rw [if_neg hk]
      by_cases hle : pos ≤ k
      · have hsub : k - pos = k - (pos + 1) + 1 := by omega
        rw [if_pos (by omega), if_pos hle, hsub, List.getElem?_cons_succ]
      · rw [if_neg (by omega), if_neg hle]

/-! ### The window -/

section Window
variable {Blank : V → Prop} {cols rows : ℕ}

def Shows (Blank : V → Prop) (v : V) : Option V → Prop
  | some c => v = c
  | none => Blank v

/- Number of page rows above the window. -/
def Page.top (rows : ℕ) (p : Page V) : ℕ := p.row - (rows - 1)

structure Window (Blank : V → Prop) (cols rows : ℕ) (p : Page V) (cell : ℕ → V) (pos : ℕ) :
    Prop where
  col_lt : p.col < cols
  pos_eq : pos = (p.row - p.top rows) * cols + p.col
  shows : ∀ r < rows, ∀ k < cols, Shows Blank (cell (r * cols + k)) (p.cells (p.top rows + r) k)
  fresh : ∀ r, p.row < r → ∀ k, p.cells r k = none

omit [DecidableEq V] in
theorem Window.row_eq {p : Page V} {cell : ℕ → V} {pos : ℕ}
    (h : Window Blank cols rows p cell pos) : pos / cols = p.row - p.top rows := by
  rw [h.pos_eq, cell_div _ h.col_lt]

theorem cell_index_inj {r k r' k' : ℕ} (hk : k < cols) (hk' : k' < cols)
    (he : r * cols + k = r' * cols + k') : r = r' ∧ k = k' := by
  refine ⟨?_, ?_⟩
  · rw [← cell_div r hk, he, cell_div r' hk']
  · rw [← cell_mod r hk, he, cell_mod r' hk']

omit [DecidableEq V] in
theorem window_write {p : Page V} {cell : ℕ → V} {pos : ℕ} (c : V)
    (h : Window Blank cols rows p cell pos) :
    Window Blank cols rows (p.write c) (Function.update cell pos c) pos := by
  refine ⟨h.col_lt, h.pos_eq, ?_, ?_⟩
  · intro r hr k hk
    have htop : (p.write c).top rows = p.top rows := rfl
    rw [htop, Page.write_cells, Function.update_apply]
    by_cases hi : p.top rows + r = p.row ∧ k = p.col
    · have hp : r * cols + k = pos := by
        rw [h.pos_eq, hi.2, ← hi.1, Nat.add_sub_cancel_left]
      rw [if_pos hp, if_pos hi]
      rfl
    · have hp : r * cols + k ≠ pos := by
        intro hp
        obtain ⟨hr', hk'⟩ := cell_index_inj hk h.col_lt (hp.trans h.pos_eq)
        refine hi ⟨?_, hk'⟩
        have : p.top rows ≤ p.row := Nat.sub_le _ _
        omega
      rw [if_neg hp, if_neg hi]
      exact h.shows r hr k hk
  · intro r hr k
    have hne : ¬(r = p.row ∧ k = p.col) := by
      intro he
      have hlt : p.row < r := hr
      omega
    rw [Page.write_cells, if_neg hne]
    exact h.fresh r hr k

omit [DecidableEq V] in
theorem window_right {p : Page V} {cell : ℕ → V} {pos : ℕ} (hc : p.col + 1 < cols)
    (h : Window Blank cols rows p cell pos) :
    Window Blank cols rows {p with col := p.col + 1} cell (pos + 1) := by
  refine ⟨hc, ?_, h.shows, h.fresh⟩
  rw [h.pos_eq]
  rfl

omit [DecidableEq V] in
/- The new row fits: nothing moves. -/
theorem window_newRow_stay {p : Page V} {cell : ℕ → V} {pos : ℕ}
    (h : Window Blank cols rows p cell pos) (hlast : ¬rows - 1 ≤ p.row) :
    Window Blank cols rows p.newRow cell ((p.row - p.top rows + 1) * cols) := by
  have htop : p.top rows = p.row - (rows - 1) := rfl
  have htop' : p.newRow.top rows = p.row + 1 - (rows - 1) := rfl
  have ht : p.newRow.top rows = p.top rows := by omega
  refine ⟨Nat.lt_of_le_of_lt (Nat.zero_le _) h.col_lt, ?_, ?_, ?_⟩
  · have hr : p.newRow.row - p.newRow.top rows = p.row - p.top rows + 1 := by
      show p.row + 1 - _ = _
      omega
    have hcol : p.newRow.col = 0 := rfl
    simp only [hr, hcol, Nat.add_zero]
  · intro r hr k hk
    rw [ht]
    exact h.shows r hr k hk
  · intro r hr k
    have hlt : p.row + 1 < r := hr
    exact h.fresh r (by omega) k

omit [DecidableEq V] in
/- The new row is below the window: the cells move up by one row. -/
theorem window_newRow_scroll {blank : V} (hb : Blank blank)
    {p : Page V} {cell : ℕ → V} {pos : ℕ} (h : Window Blank cols rows p cell pos)
    (hlast : rows - 1 ≤ p.row) :
    Window Blank cols rows p.newRow (scroll blank cols rows cell)
      ((p.row - p.top rows) * cols) := by
  have htop : p.top rows = p.row - (rows - 1) := rfl
  have htop' : p.newRow.top rows = p.row + 1 - (rows - 1) := rfl
  refine ⟨Nat.lt_of_le_of_lt (Nat.zero_le _) h.col_lt, ?_, ?_, ?_⟩
  · have hr : p.newRow.row - p.newRow.top rows = p.row - p.top rows := by
      show p.row + 1 - _ = _
      omega
    have hcol : p.newRow.col = 0 := rfl
    rw [hr, hcol, Nat.add_zero]
  · intro r hr k hk
    have hshift : r * cols + k + cols = (r + 1) * cols + k := by ring
    have hcells : p.newRow.cells = p.cells := rfl
    dsimp only [scroll]
    rw [hshift, hcells, htop']
    by_cases hr' : r + 1 < rows
    · have hin : (r + 1) * cols + k < rows * cols := cell_lt hr' hk
      have hrow : p.row + 1 - (rows - 1) + r = p.top rows + (r + 1) := by omega
      rw [if_pos hin, hrow]
      exact h.shows (r + 1) hr' k hk
    · have hout : ¬(r + 1) * cols + k < rows * cols := by
        have : rows * cols ≤ (r + 1) * cols := Nat.mul_le_mul_right cols (by omega)
        omega
      have hrow : p.row < p.row + 1 - (rows - 1) + r := by omega
      rw [if_neg hout, h.fresh _ hrow k]
      exact hb
  · intro r hr k
    have hlt : p.row + 1 < r := hr
    exact h.fresh r (by omega) k

omit [DecidableEq V] in
/- The grid scrolls exactly when the page's cursor is on the window's last row. -/
theorem window_newRow {blank : V} (hb : Blank blank) (hrows : 0 < rows)
    {p : Page V} {cell : ℕ → V} {pos : ℕ} (h : Window Blank cols rows p cell pos) :
    Window Blank cols rows p.newRow
      (settle blank cols rows cell ((pos / cols + 1) * cols)).2
      (settle blank cols rows cell ((pos / cols + 1) * cols)).1 := by
  have hcols : 0 < cols := Nat.lt_of_le_of_lt (Nat.zero_le _) h.col_lt
  have htop : p.top rows = p.row - (rows - 1) := rfl
  unfold settle
  rw [h.row_eq]
  by_cases hlast : rows - 1 ≤ p.row
  · have hscroll : rows * cols ≤ (p.row - p.top rows + 1) * cols :=
      Nat.mul_le_mul_right cols (by omega)
    have hmul : (p.row - p.top rows + 1) * cols - cols = (p.row - p.top rows) * cols := by
      rw [Nat.add_mul, Nat.one_mul, Nat.add_sub_cancel]
    rw [if_pos hscroll, hmul]
    exact window_newRow_scroll hb h hlast
  · have hstay : ¬rows * cols ≤ (p.row - p.top rows + 1) * cols := by
      rw [Nat.mul_le_mul_right_iff hcols]
      omega
    rw [if_neg hstay]
    exact window_newRow_stay h hlast

theorem window_put (nl : V) {blank : V} (hb : Blank blank) (hrows : 0 < rows)
    {p : Page V} {cell : ℕ → V} {pos : ℕ} (c : V) (h : Window Blank cols rows p cell pos) :
    Window Blank cols rows (p.put nl cols c) (put nl blank cols rows cell pos c).2
      (put nl blank cols rows cell pos c).1 := by
  unfold put write advance Page.put
  by_cases hn : c = nl
  · simp only [if_pos hn]
    exact window_newRow hb hrows h
  · simp only [if_neg hn]
    have hw := window_write c h
    by_cases hwrap : p.col + 1 = cols
    · have hpos : pos + 1 = (pos / cols + 1) * cols := by
        rw [h.row_eq, h.pos_eq, Nat.add_mul, Nat.one_mul]
        omega
      rw [if_pos hwrap, hpos]
      exact window_newRow hb hrows hw
    · have hc := h.col_lt
      have hright : (p.write c).col + 1 < cols := by
        show p.col + 1 < cols
        omega
      have hmove := window_right hright hw
      have hstay : ¬rows * cols ≤ pos + 1 := by
        have hrow : p.row - p.top rows < rows := by
          unfold Page.top
          omega
        have hle : (p.row - p.top rows + 1) * cols ≤ rows * cols := Nat.mul_le_mul_right cols hrow
        rw [Nat.add_mul, Nat.one_mul] at hle
        rw [h.pos_eq]
        omega
      unfold settle
      rw [if_neg hwrap, if_neg hstay]
      exact hmove

theorem window_puts (nl : V) {blank : V} (hb : Blank blank) (hrows : 0 < rows) (text : List V)
    {p : Page V} {cell : ℕ → V} {pos : ℕ} (h : Window Blank cols rows p cell pos) :
    Window Blank cols rows (text.foldl (Page.put nl cols) p)
      (puts nl blank cols rows cell pos text).2 (puts nl blank cols rows cell pos text).1 := by
  induction text generalizing p cell pos with
  | nil => exact h
  | cons c text ih => exact ih (window_put nl hb hrows c h)

omit [DecidableEq V] in
theorem window_empty {cell : ℕ → V} (hcols : 0 < cols) (hcell : ∀ k < rows * cols, Blank (cell k)) :
    Window Blank cols rows Page.empty cell 0 := by
  refine ⟨hcols, ?_, ?_, fun _ _ _ => rfl⟩
  · simp [Page.empty]
  · intro r hr k hk
    exact hcell _ (cell_lt hr hk)

end Window
end CasseOS.TextGrid

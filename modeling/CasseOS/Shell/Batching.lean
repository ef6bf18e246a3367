import CasseOS.Shell.MainLoop
import Mathlib.Algebra.Order.BigOperators.Group.List

/-! # How the shell depends on the batching of key events

The commands a user types are the texts edited between ENTER presses
(`commands`). `shell_main_loop` keeps one flag for the last press of a batch,
so of each batch only an ENTER that is the last press is seen: the shell runs
the commands of the abstract editor exactly when no batch has a press behind
an ENTER. -/

namespace CasseOS.Shell
open CInt Keyboard Screen

/-! ### Commands in a sequence of presses -/

/- The texts edited between successive ENTER presses. -/
def commands : Line → List Keycode → List (List UInt8)
  | _, [] => []
  | l, code :: codes =>
    if code = kcEnter then l.text :: commands emptyLine codes else commands (press l code) codes

/- The codes of the presses among the events. -/
def presses (events : List KeyEvent) : List Keycode :=
  (events.filter fun e => e.type = .press).map KeyEvent.code

/- The flag `end_command` after a batch. -/
def endsWithEnter (codes : List Keycode) : Bool := codes.getLast? = some kcEnter

theorem foldl_flag (codes : List Keycode) :
    codes.foldl (fun _ code => decide (code = kcEnter)) false = endsWithEnter codes := by
  rcases List.eq_nil_or_concat codes with rfl | ⟨init, code, rfl⟩
  · rfl
  · rw [List.concat_eq_append, List.foldl_concat, endsWithEnter, List.getLast?_concat]
    simp only [Option.some.injEq]

/- No ENTER press of the batch is followed by another press. -/
def EnterLast (codes : List Keycode) : Prop := kcEnter ∉ codes.dropLast

theorem presses_append (a b : List KeyEvent) : presses (a ++ b) = presses a ++ presses b := by
  rw [presses, List.filter_append, List.map_append]
  rfl

theorem presses_cons (e : KeyEvent) (events : List KeyEvent) :
    presses (e :: events) = if e.type = .press then e.code :: presses events else presses events := by
  unfold presses
  rw [List.filter_cons]
  by_cases he : e.type = .press
  · rw [if_pos (decide_eq_true he), if_pos he, List.map_cons]
  · rw [if_neg (by simpa using he), if_neg he]

theorem presses_flatten (batches : List (List KeyEvent)) :
    presses batches.flatten = (batches.map presses).flatten := by
  induction batches with
  | nil => rfl
  | cons events batches ih =>
    rw [List.flatten_cons, presses_append, ih, List.map_cons, List.flatten_cons]

theorem endsWithEnter_cons (code next : Keycode) (codes : List Keycode) :
    endsWithEnter (code :: next :: codes) = endsWithEnter (next :: codes) := by
  rw [endsWithEnter, List.getLast?_cons_cons]
  rfl

theorem commands_append {codes : List Keycode} (h : EnterLast codes) (l : Line)
    (rest : List Keycode) :
    commands l (codes ++ rest) =
      if endsWithEnter codes then (codes.foldl press l).text :: commands emptyLine rest
      else commands (codes.foldl press l) rest := by
  induction codes generalizing l with
  | nil => rfl
  | cons code codes ih =>
    cases codes with
    | nil =>
      by_cases hc : code = kcEnter
      · subst hc
        rfl
      · have he : ¬endsWithEnter [code] = true := fun hs =>
          hc (Option.some.inj (of_decide_eq_true hs))
        rw [List.singleton_append, commands, if_neg hc, if_neg he]
        rfl
    | cons next codes =>
      rw [EnterLast, List.dropLast_cons_cons, List.mem_cons, not_or] at h
      rw [List.cons_append, commands, if_neg fun he => h.1 he.symm, ih h.2, endsWithEnter_cons]
      rfl

theorem length_commands (l : Line) (codes : List Keycode) :
    (commands l codes).length = codes.count kcEnter := by
  induction codes generalizing l with
  | nil => rfl
  | cons code codes ih =>
    by_cases hc : code = kcEnter
    · rw [commands, if_pos hc, List.length_cons, ih, hc, List.count_cons_self]
    · rw [commands, if_neg hc, ih, List.count_cons_of_ne hc]

/- The ENTERs of a batch are the one at its end and those before it. -/
theorem count_enter (codes : List Keycode) :
    codes.count kcEnter = codes.dropLast.count kcEnter + (endsWithEnter codes).toNat := by
  rcases List.eq_nil_or_concat codes with rfl | ⟨init, code, rfl⟩
  · rfl
  · rw [List.concat_eq_append, List.dropLast_concat, List.count_append, List.count_singleton,
      endsWithEnter, List.getLast?_concat]
    by_cases hc : code = kcEnter
    · subst hc
      rfl
    · have hs : ¬some code = some kcEnter := fun he => hc (Option.some.inj he)
      rw [if_neg (by simpa using hc), decide_eq_false hs]
      rfl

/-! ### The commands the shell executes, batch by batch -/

/- What the calls of the shell execute, given the line and the flag the first
of them finds. -/
def executed : Line → Bool → List (List Keycode) → List (List UInt8)
  | _, _, [] => []
  | l, ended, codes :: batches =>
    (if ended then [l.text] else []) ++
      executed (codes.foldl press (if ended then emptyLine else l)) (endsWithEnter codes) batches

/- Calls without events only finish the command the last batch ended. -/
theorem executed_idle (l : Line) (ended : Bool) (n : ℕ) :
    executed l ended (List.replicate (n + 1) []) = if ended then [l.text] else [] := by
  have hidle : ∀ n l, executed l false (List.replicate n []) = [] := by
    intro n
    induction n with
    | zero => intro l; rfl
    | succ n ih => intro l; exact ih l
  rw [List.replicate_succ, executed]
  have hrest := hidle n (if ended then emptyLine else l)
  rw [show endsWithEnter [] = false from rfl, List.foldl_nil, hrest, List.append_nil]

theorem executed_of_enterLast {batches : List (List Keycode)} (h : ∀ codes ∈ batches, EnterLast codes)
    (l : Line) (ended : Bool) (n : ℕ) :
    executed l ended (batches ++ List.replicate (n + 1) []) =
      (if ended then [l.text] else []) ++
        commands (if ended then emptyLine else l) batches.flatten := by
  induction batches generalizing l ended with
  | nil =>
    rw [List.nil_append, executed_idle, List.flatten_nil, commands, List.append_nil]
  | cons codes batches ih =>
    have hc := h codes (List.mem_cons_self ..)
    have hrest := ih (fun c hc => h c (List.mem_cons_of_mem _ hc))
      (codes.foldl press (if ended then emptyLine else l)) (endsWithEnter codes)
    rw [List.cons_append, executed, hrest, List.flatten_cons, commands_append hc]
    cases endsWithEnter codes <;> rfl

theorem length_executed (l : Line) (ended : Bool) (batches : List (List Keycode)) (n : ℕ) :
    (executed l ended (batches ++ List.replicate (n + 1) [])).length =
      ended.toNat + (batches.map fun codes => (endsWithEnter codes).toNat).sum := by
  induction batches generalizing l ended with
  | nil =>
    rw [List.nil_append, executed_idle]
    cases ended <;> rfl
  | cons codes batches ih =>
    rw [List.cons_append, executed, List.length_append, ih, List.map_cons, List.sum_cons]
    cases ended <;> rfl

theorem count_flatten (batches : List (List Keycode)) :
    batches.flatten.count kcEnter =
      (batches.map fun codes => codes.dropLast.count kcEnter).sum +
        (batches.map fun codes => (endsWithEnter codes).toNat).sum := by
  induction batches with
  | nil => rfl
  | cons codes batches ih =>
    rw [List.flatten_cons, List.count_append, ih, count_enter codes, List.map_cons, List.sum_cons,
      List.map_cons, List.sum_cons]
    omega

/- An ENTER with a press behind it is one command too few. -/
theorem executed_eq_iff (batches : List (List Keycode)) (n : ℕ) :
    executed emptyLine false (batches ++ List.replicate (n + 1) []) =
      commands emptyLine batches.flatten ↔ ∀ codes ∈ batches, EnterLast codes := by
  refine ⟨?_, fun h => executed_of_enterLast h emptyLine false n⟩
  intro heq codes hmem hin
  have hlen := congrArg List.length heq
  rw [length_executed, length_commands, count_flatten] at hlen
  have hpos : 0 < codes.dropLast.count kcEnter := List.count_pos_iff.mpr hin
  have hsum : codes.dropLast.count kcEnter ≤
      (batches.map fun codes => codes.dropLast.count kcEnter).sum :=
    List.le_sum_of_mem (List.mem_map_of_mem hmem)
  change 0 + _ = _ at hlen
  omega

/-! ### The shell runs this machine -/

section Refinement
variable {ω : Type} (t : TextMode) (scan : ω → ω)

theorem dispatchAll_frame (events : List KeyEvent) (sh : ShellState ω) :
    (dispatchAll t sh events).start = sh.start ∧
      (dispatchAll t sh events).endCommand = sh.endCommand ∧
      (dispatchAll t sh events).usb = sh.usb ∧
      ∃ s, (dispatchAll t sh events).cmd = {sh.cmd with console := s} := by
  induction events generalizing sh with
  | nil => exact ⟨rfl, rfl, rfl, sh.cmd.console, rfl⟩
  | cons ev events ih =>
    obtain ⟨hstart, hend, husb, s, hcmd⟩ := ih (dispatchAll t sh [ev])
    exact ⟨hstart, hend, husb, s, hcmd⟩

theorem dispatchAll_presses (events : List KeyEvent) (sh : ShellState ω)
    (hroom : sh.kbd.events.used + events.length < keybufCap) :
    presses (dispatchAll t sh events).kbd.events.contents =
      presses sh.kbd.events.contents ++ presses events := by
  induction events generalizing sh with
  | nil => rw [show presses [] = [] from rfl, List.append_nil]; rfl
  | cons ev events ih =>
    rw [List.length_cons] at hroom
    have hpush := Ring.push_contents sh.kbd.events
      {ev with mods := updateModifiers (toggleLocks sh.kbd.mods ev) ev} (by omega)
    have hev : (dispatchAll t sh [ev]).kbd.events.contents = sh.kbd.events.contents ++
        [{ev with mods := updateModifiers (toggleLocks sh.kbd.mods ev) ev}] := by
      rw [← hpush, ← dispatch_events t sh.kbd sh.cmd.console ev]
      rfl
    have hused : (dispatchAll t sh [ev]).kbd.events.used = sh.kbd.events.used + 1 := by
      rw [← Ring.length_contents, hev, List.length_append, Ring.length_contents]
      rfl
    have hone : presses [{ev with mods := updateModifiers (toggleLocks sh.kbd.mods ev) ev}] =
        presses [ev] := by
      rw [presses_cons, presses_cons]
    have hih := ih (dispatchAll t sh [ev]) (by omega)
    rw [hev, presses_append, hone, List.append_assoc, ← presses_append] at hih
    exact hih

theorem drainEvents_spec (fuel : ℕ) (sh : ShellState ω) (hwf : WellFormed sh.cmd)
    (hfuel : sh.kbd.events.used < fuel) :
    ∃ sh', drainEvents t fuel sh = some sh' ∧ WellFormed sh'.cmd ∧
      lineOf sh'.cmd = (presses sh.kbd.events.contents).foldl press (lineOf sh.cmd) ∧
      sh'.endCommand = (presses sh.kbd.events.contents).foldl
        (fun _ code => decide (code = kcEnter)) sh.endCommand ∧
      sh'.start = sh.start ∧ sh'.kbd.events.contents = [] := by
  induction fuel generalizing sh with
  | zero => exact absurd hfuel (Nat.not_lt_zero _)
  | succ fuel ih =>
    by_cases hempty : sh.kbd.events.head = sh.kbd.events.tail
    · have hnil := Ring.contents_of_empty hempty
      refine ⟨sh, ?_, hwf, ?_, ?_, rfl, hnil⟩
      · simp only [drainEvents, kbdReadEvent, Ring.pop_empty hempty, Option.map_none]
      · rw [hnil]
        rfl
      · rw [hnil]
        rfl
    · obtain ⟨ev, events, hpop, hcontents⟩ := Ring.pop_contents hempty
      have hused : sh.kbd.events.used = events.used + 1 := by
        rw [← Ring.length_contents, hcontents, List.length_cons, Ring.length_contents]
      rw [hcontents, presses_cons]
      simp only [drainEvents, kbdReadEvent, hpop, Option.map_some]
      by_cases hpress : ev.type = .press
      · obtain ⟨r, hr, hd⟩ := handleCommandLine_spec t hwf ev.code
        have hflag : r.1 = decide (ev.code = kcEnter) := by
          rw [Bool.eq_iff_iff, decide_eq_true_iff]
          exact hd.result_iff
        obtain ⟨sh', hrun, hwf', hline, hend, hstart, hnil⟩ :=
          ih {sh with kbd := {sh.kbd with events}, cmd := r.2, endCommand := r.1}
            (hd.wellFormed hwf) (by dsimp only; omega)
        refine ⟨sh', ?_, hwf', ?_, ?_, hstart, hnil⟩
        · simp only [if_pos hpress, hr, Option.bind_eq_bind, Option.bind_some]
          exact hrun
        · rw [if_pos hpress, hline, List.foldl_cons, ← hd.line hwf]
        · rw [if_pos hpress, hend, List.foldl_cons, hflag]
      · obtain ⟨sh', hrun, hrest⟩ :=
          ih {sh with kbd := {sh.kbd with events}} hwf (by dsimp only; omega)
        refine ⟨sh', ?_, ?_⟩
        · rw [if_neg hpress]
          exact hrun
        · rw [if_neg hpress]
          exact hrest

theorem executeCommand_spec (sh : ShellState ω) (hwf : WellFormed sh.cmd) :
    ∃ sh', executeCommand t scan sh = some ((lineOf sh.cmd).text, sh') ∧ WellFormed sh'.cmd ∧
      lineOf sh'.cmd = emptyLine ∧ sh'.endCommand = false ∧ sh'.start = sh.start ∧
      sh'.kbd = sh.kbd := by
  simp only [executeCommand, commandString_eq hwf, Option.bind_eq_bind, Option.bind_some]
  split <;> exact ⟨_, rfl, flushCommandLine_wellFormed _, rfl, rfl, rfl, rfl⟩

/- Where the shell stands between two calls: at the prompt before the first
one, or with the line `l` and the flag `ended`. -/
def Standing (sh : ShellState ω) (l : Line) (ended : Bool) : Prop :=
  sh.endCommand = ended ∧
    ((sh.start = true ∧ l = emptyLine ∧ ended = false) ∨
      (sh.start = false ∧ WellFormed sh.cmd ∧ lineOf sh.cmd = l))

theorem shellMainLoop_spec (sh : ShellState ω) {l : Line} {ended : Bool}
    (h : Standing sh l ended) :
    ∃ sh', shellMainLoop t scan sh = some (if ended then [l.text] else [], sh') ∧
      Standing sh' ((presses sh.kbd.events.contents).foldl press (if ended then emptyLine else l))
        (endsWithEnter (presses sh.kbd.events.contents)) ∧
      sh'.kbd.events.contents = [] := by
  obtain ⟨hend, hcase⟩ := h
  -- after the greeting the first call is like any other
  obtain ⟨sh₁, hsh₁, hwf, hline, hend₁, hstart₁, hkbd₁⟩ : ∃ sh₁ : ShellState ω,
      (if sh.start then welcome t sh else sh) = sh₁ ∧ WellFormed sh₁.cmd ∧ lineOf sh₁.cmd = l ∧
        sh₁.endCommand = ended ∧ sh₁.start = false ∧ sh₁.kbd = sh.kbd := by
    rcases hcase with ⟨hstart, hl, -⟩ | ⟨hstart, hwf, hl⟩
    · exact ⟨welcome t sh, by rw [hstart]; rfl, flushCommandLine_wellFormed _, hl.symm, hend, rfl,
        rfl⟩
    · exact ⟨sh, by rw [hstart]; rfl, hwf, hl, hend, hstart, rfl⟩
  have hused : ∀ k : Kbd, k.events.used < keybufCap := fun k => k.events.used_lt
  simp only [shellMainLoop, hsh₁, hend₁]
  cases ended with
  | false =>
    obtain ⟨sh₂, hdrain, hwf₂, hline₂, hend₂, hstart₂, hnil⟩ :=
      drainEvents_spec t keybufCap sh₁ hwf (hused _)
    rw [hkbd₁, hline] at hline₂
    rw [hkbd₁, hend₁, foldl_flag] at hend₂
    refine ⟨sh₂, ?_, ⟨hend₂, Or.inr ⟨hstart₂.trans hstart₁, hwf₂, hline₂⟩⟩, hnil⟩
    simp only [Bool.false_eq_true, if_false, hdrain]
    rfl
  | true =>
    obtain ⟨sh₂, hexec, hwf₂, hline₂, hend₂, hstart₂, hkbd₂⟩ := executeCommand_spec t scan sh₁ hwf
    obtain ⟨sh₃, hdrain, hwf₃, hline₃, hend₃, hstart₃, hnil⟩ :=
      drainEvents_spec t keybufCap sh₂ hwf₂ (hused _)
    rw [hkbd₂, hkbd₁, hline₂] at hline₃
    rw [hkbd₂, hkbd₁, hend₂, foldl_flag] at hend₃
    refine ⟨sh₃, ?_, ⟨hend₃, Or.inr ⟨hstart₃.trans (hstart₂.trans hstart₁), hwf₃, hline₃⟩⟩, hnil⟩
    simp only [if_true, hexec, Option.bind_eq_bind, Option.bind_some, hdrain, hline]
    rfl

theorem shellRun_spec (batches : List Batch) (sh : ShellState ω) {l : Line} {ended : Bool}
    (h : Standing sh l ended) (hempty : sh.kbd.events.contents = []) :
    ∃ sh', shellRun t scan sh batches =
      some (executed l ended (batches.map fun b => presses b.events), sh') := by
  induction batches generalizing sh l ended with
  | nil => exact ⟨sh, rfl⟩
  | cons batch batches ih =>
    have hused : sh.kbd.events.used = 0 := by rw [← Ring.length_contents, hempty]; rfl
    have hlen := batch.fits
    have hpend := dispatchAll_presses t batch.events sh (by omega)
    rw [hempty] at hpend
    replace hpend : presses (dispatchAll t sh batch.events).kbd.events.contents = presses batch.events := hpend
    obtain ⟨hstart, hend, -, s, hcmd⟩ := dispatchAll_frame t batch.events sh
    have hstand : Standing (dispatchAll t sh batch.events) l ended := by
      refine ⟨hend.trans h.1, ?_⟩
      rw [hstart, hcmd]
      rcases h.2 with hfirst | ⟨hs, hwf, hl⟩
      · exact Or.inl hfirst
      · exact Or.inr ⟨hs, ⟨hwf.cursor_le, hwf.len_le, hwf.noNul, hwf.terminated⟩, hl⟩
    obtain ⟨sh₁, hcall, hstand₁, hnil⟩ := shellMainLoop_spec t scan _ hstand
    rw [hpend] at hstand₁
    obtain ⟨sh₂, hrun⟩ := ih sh₁ hstand₁ hnil
    refine ⟨sh₂, ?_⟩
    simp only [shellRun, hcall, hrun, Option.bind_eq_bind, Option.bind_some]
    rfl

end Refinement

/-- From boot on, for every sequence of batches and at least one further call,
the shell executes the commands typed, whatever the batches, exactly when no
ENTER press has another press behind it in its batch. -/
theorem shell_executes_commands_iff {ω : Type} (t : TextMode) (scan : ω → ω) (sh : ShellState ω)
    (batches : List Batch) (n : ℕ) :
    ∃ out sh', shellRun t scan (boot sh) (batches ++ List.replicate (n + 1) Batch.empty) =
        some (out, sh') ∧
      (out = commands emptyLine (presses (batches.map Batch.events).flatten) ↔
        ∀ b ∈ batches, EnterLast (presses b.events)) := by
  have hboot : Standing (boot sh) emptyLine false := ⟨rfl, Or.inl ⟨rfl, rfl, rfl⟩⟩
  obtain ⟨sh', hrun⟩ := shellRun_spec t scan (batches ++ List.replicate (n + 1) Batch.empty)
    (boot sh) hboot (Ring.contents_of_empty rfl)
  refine ⟨_, sh', hrun, ?_⟩
  have hiff := executed_eq_iff (batches.map fun b => presses b.events) n
  rw [List.forall_mem_map] at hiff
  rw [presses_flatten, List.map_map, List.map_append, List.map_replicate]
  exact hiff

/- The keys a, ENTER, b, pressed before the shell gets to run. -/
def fastBatch : Batch :=
  ⟨[⟨.press, 97, 0, .ps2, 0⟩, ⟨.press, kcEnter, 0, .ps2, 0⟩, ⟨.press, 98, 0, .ps2, 0⟩], by decide⟩

def bootedShell : ShellState Unit :=
  ⟨kbdStatic, ⟨fun _ => 0, 0, 0, 0, biosConsole⟩, false, true, ()⟩

/- Split in two the same keys run the command; in one batch they do not. -/
theorem shell_loses_command :
    (∃ sh', shellRun vgaText id (boot bootedShell) [fastBatch, Batch.empty] = some ([], sh')) ∧
      commands emptyLine (presses fastBatch.events) = [[97]] := by
  have hboot : Standing (boot bootedShell) emptyLine false := ⟨rfl, Or.inl ⟨rfl, rfl, rfl⟩⟩
  obtain ⟨sh', hrun⟩ := shellRun_spec vgaText id [fastBatch, Batch.empty] (boot bootedShell) hboot
    (Ring.contents_of_empty rfl)
  exact ⟨⟨sh', hrun⟩, by decide⟩

end CasseOS.Shell

import CasseOS.Libc.String
import CasseOS.Screen.VgaConsole
import Mathlib.Data.Nat.Bitwise

/-! # Formatted output (`drivers/screen/screen.c`)

`printf` puts its text together in a local buffer of 256 bytes and gives it to
`kprint`. The buffers on the stack have a size and are not initialised: `frame n`
is what the stack holds when `n` characters of the format are left. The arguments
have the types that `va_arg` asks for. -/

namespace CasseOS.Screen
open Buffer Numeral Libc

inductive Arg where
  | int (n : Int32)
  | uint (n : UInt32)
  | uint64 (n : UInt64)
  | string (s : List UInt8)

/- The cases of the `switch`. -/
inductive Specifier where
  | d | u | x | b | s | c | percent
  | other (c : UInt8)
deriving DecidableEq

def percentSign : UInt8 := 37

def specifier (c : UInt8) : Specifier :=
  if c = 100 then .d
  else if c = 117 then .u
  else if c = 120 then .x
  else if c = 98 then .b
  else if c = 115 then .s
  else if c = 99 then .c
  else if c = percentSign then .percent
  else .other c

/- The next argument, if it is of the type. -/
def nextInt : List Arg → Option (Int32 × List Arg)
  | .int n :: args => some (n, args)
  | _ => none

def nextUint : List Arg → Option (UInt32 × List Arg)
  | .uint n :: args => some (n, args)
  | _ => none

def nextUint64 : List Arg → Option (UInt64 × List Arg)
  | .uint64 n :: args => some (n, args)
  | _ => none

def nextString : List Arg → Option (List UInt8 × List Arg)
  | .string s :: args => some (s, args)
  | _ => none

/- `va_arg`, which has no meaning where the types differ. -/
def vaArg {T : Type} (next : List Arg → Option (T × List Arg)) (args : List Arg) :
    Except Fault (T × List Arg) :=
  match next args with
  | some r => pure r
  | none => .error .undefined

/- `buffer` and `buffer_index`. -/
structure Out where
  buffer : List UInt8
  index : ℤ

/- `buffer[buffer_index++] = c;` -/
def Out.put (o : Out) (c : UInt8) : Except Fault Out := do
  let buffer ← store o.buffer o.index c
  pure ⟨buffer, o.index + 1⟩

/- The loop that puts a string to the buffer, from its byte `j` on. -/
def Out.putString : ℤ → List UInt8 → Out → Except Fault Out
  | j, [], _ => .error (.read j)
  | j, c :: str, o =>
    if c ≠ 0 then do
      let o ← o.put c
      Out.putString (j + 1) str o
    else pure o

/- A local array of `size` bytes. -/
def localArray (frame : ℕ → UInt8) (offset size : ℕ) : List UInt8 :=
  (List.range size).map fun i => frame (offset + i)

/- `(char)`. -/
def toChar (n : Int32) : UInt8 := n.toInt8.toUInt8

/- The loop over the bits below `j`: `binary_buffer`, `buffer_pos` and `started`. -/
def binaryLoop (value : UInt32) :
    ℕ → List UInt8 → ℤ → Bool → Except Fault (List UInt8 × ℤ × Bool)
  | 0, str, pos, started => pure (str, pos, started)
  | j + 1, str, pos, started => do
    let bit : UInt8 := if value &&& (1 <<< UInt32.ofNat j) ≠ 0 then 49 else 48
    let started := if bit = 49 then true else started
    if started then do
      let str ← store str pos bit
      binaryLoop value j str (pos + 1) started
    else binaryLoop value j str pos started

/-- The conversion of `%b` (`screen.c:363-384`). -/
def binaryToString (value : UInt32) (str : List UInt8) : Except Fault (List UInt8) := do
  let (str, pos, started) ← binaryLoop value 32 str 0 false
  let (str, pos) ← if !started then do
      let str ← store str pos 48
      pure (str, pos + 1)
    else pure (str, pos)
  store str pos 0

/-- The `switch` (`screen.c:335-411`). -/
def convert (frame : ℕ → UInt8) (args : List Arg) (o : Out) :
    Specifier → Except Fault (List Arg × Out)
  | .d => do
    let (value, args) ← vaArg nextInt args
    let str ← intToAscii value (localArray frame 0 16)
    let o ← Out.putString 0 str o
    pure (args, o)
  | .u => do
    let (value, args) ← vaArg nextUint args
    let str ← uintToAscii value (localArray frame 16 16) (localArray frame 0 16)
    let o ← Out.putString 0 str o
    pure (args, o)
  | .x => do
    let (value, args) ← vaArg nextUint64 args
    let str ← hexToStringTrimmed value (localArray frame 0 17)
    let o ← Out.putString 0 str o
    pure (args, o)
  | .b => do
    let (value, args) ← vaArg nextUint args
    let str ← binaryToString value (localArray frame 0 33)
    let o ← Out.putString 0 str o
    pure (args, o)
  | .s => do
    let (str, args) ← vaArg nextString args
    let o ← Out.putString 0 (str ++ [0]) o
    pure (args, o)
  | .c => do
    let (value, args) ← vaArg nextInt args
    let o ← o.put (toChar value)
    pure (args, o)
  | .percent => do
    let o ← o.put percentSign
    pure (args, o)
  | .other c => do
    let o ← o.put percentSign
    let o ← o.put c
    pure (args, o)

/- The loop over the format (`screen.c:332-416`). -/
def printfLoop (frame : ℕ → ℕ → UInt8) : List UInt8 → List Arg → Out → Except Fault Out
  | [], _, o => pure o
  | [c], _, o => if c = 0 then pure o else o.put c
  | c :: next :: format, args, o =>
    if c = 0 then pure o
    else if c = percentSign ∧ next ≠ 0 then do
      let (args, o) ← convert (frame format.length) args o (specifier next)
      printfLoop frame format args o
    else do
      let o ← o.put c
      printfLoop frame (next :: format) args o

/-- `printf` (`screen.c:322-422`). -/
def printf (t : TextMode) (frame : ℕ → ℕ → UInt8) (s : Console) (format : List UInt8)
    (args : List Arg) : Except Fault Console :=
  if !s.available && !s.fb.ready then pure s
  else do
    let o ← printfLoop frame format args ⟨localArray (frame format.length) 0 256, 0⟩
    let buffer ← store o.buffer o.index 0
    pure (kprint t s buffer)

/-! ### The text that is meant -/

/- What a conversion writes to a buffer of `size` bytes. -/
def written (convert : List UInt8 → Except Fault (List UInt8)) (size : ℕ) : List UInt8 :=
  match convert (List.replicate size 0) with
  | .ok str => cstr str
  | .error _ => []

/- What takes the place of a specifier, and the arguments that are left; `none` where
the next argument is not of its type. -/
def replacement (args : List Arg) : Specifier → Option (List UInt8 × List Arg)
  | .d => do
    let (n, args) ← nextInt args
    some (written (intToAscii n) 16, args)
  | .u => do
    let (n, args) ← nextUint args
    some (written (uintToAscii n (List.replicate 16 0)) 16, args)
  | .x => do
    let (n, args) ← nextUint64 args
    some (written (hexToStringTrimmed n) 17, args)
  | .b => do
    let (n, args) ← nextUint args
    some (numeral 2 n.toNat, args)
  | .s => do
    let (s, args) ← nextString args
    some (cstr s, args)
  | .c => do
    let (n, args) ← nextInt args
    some ([toChar n], args)
  | .percent => some ([percentSign], args)
  | .other c => some ([percentSign, c], args)

/- The expansion of a format without a NUL; `none` where the arguments do not match. -/
def expansion : List UInt8 → List Arg → Option (List UInt8)
  | [], _ => some []
  | [c], _ => some [c]
  | c :: next :: format, args =>
    if c = percentSign then do
      let (text, args) ← replacement args (specifier next)
      let rest ← expansion format args
      pure (text ++ rest)
    else do
      let rest ← expansion (next :: format) args
      pure (c :: rest)

/-! ### Putting text to the buffer -/

/- All of a text at once. -/
def Out.putAll (o : Out) (text : List UInt8) : Except Fault Out := do
  let buffer ← storeAll o.buffer o.index text
  pure ⟨buffer, o.index + text.length⟩

theorem putAll_nil (o : Out) : o.putAll [] = pure o := by
  rw [Out.putAll, storeAll, pure_bind, List.length_nil]
  congr 2
  exact Int.add_zero _

theorem putAll_cons (o : Out) (c : UInt8) (text : List UInt8) :
    o.putAll (c :: text) = o.put c >>= fun o => o.putAll text := by
  rw [Out.putAll, Out.put, storeAll, bind_assoc, bind_assoc]
  refine bind_congr fun buffer => ?_
  rw [pure_bind, Out.putAll]
  refine bind_congr fun buffer => ?_
  rw [List.length_cons]
  congr 2
  dsimp only
  omega

theorem put_eq (o : Out) (c : UInt8) : o.put c = o.putAll [c] := by
  simp only [putAll_cons, putAll_nil, bind_pure]

theorem putAll_append (o : Out) (text text' : List UInt8) :
    o.putAll (text ++ text') = o.putAll text >>= fun o => o.putAll text' := by
  induction text generalizing o with
  | nil => rw [List.nil_append, putAll_nil, pure_bind]
  | cons c text ih =>
    rw [List.cons_append, putAll_cons, putAll_cons, bind_assoc]
    exact bind_congr fun o => ih o

/- A string is put up to its first NUL. -/
theorem putString_eq (str rest : List UInt8) (j : ℤ) (o : Out) :
    Out.putString j (str ++ 0 :: rest) o = o.putAll (cstr str) := by
  induction str generalizing j o with
  | nil => rw [List.nil_append, Out.putString, if_neg (not_not.mpr rfl)]; exact (putAll_nil o).symm
  | cons c str ih =>
    rw [List.cons_append, Out.putString]
    by_cases hc : c = 0
    · have hnil : cstr (c :: str) = [] := by simp [cstr, hc]
      rw [if_neg (not_not.mpr hc), hnil, putAll_nil]
    · have hcons : cstr (c :: str) = c :: cstr str := by simp [cstr, hc]
      rw [if_pos hc, hcons, putAll_cons]
      exact bind_congr fun o => ih (j + 1) o

/-! ### Binary -/

theorem bit_eq (value : UInt32) {j : ℕ} (hj : j < 32) :
    (if value &&& (1 <<< UInt32.ofNat j) ≠ 0 then (49 : UInt8) else 48) =
      asciiDigit (value.toNat / 2 ^ j % 2) := by
  have hmask : (1 <<< UInt32.ofNat j : UInt32).toNat = 2 ^ j := by
    rw [UInt32.toNat_shiftLeft, UInt32.toNat_ofNat_of_lt' (Nat.lt_trans hj (by decide)),
      Nat.mod_eq_of_lt hj]
    rw [Nat.shiftLeft_eq, UInt32.toNat_one, Nat.one_mul]
    exact Nat.mod_eq_of_lt (Nat.pow_lt_pow_right (by decide) hj)
  have hand : (value &&& 1 <<< UInt32.ofNat j).toNat =
      (decide (value.toNat / 2 ^ j % 2 = 1)).toNat * 2 ^ j := by
    rw [UInt32.toNat_and, hmask, Nat.and_two_pow, Nat.testBit_eq_decide_div_mod_eq]
  by_cases hd : value.toNat / 2 ^ j % 2 = 1
  · have hne : value &&& 1 <<< UInt32.ofNat j ≠ 0 := by
      intro hz
      rw [hz, decide_eq_true hd, Bool.toNat_true, Nat.one_mul] at hand
      exact absurd hand.symm (Nat.pos_iff_ne_zero.mp (Nat.two_pow_pos j))
    rw [if_pos hne, hd]
    rfl
  · have hzero : value &&& 1 <<< UInt32.ofNat j = 0 := by
      apply UInt32.toNat.inj
      rw [hand, decide_eq_false hd]
      exact Nat.zero_mul _
    have hd : value.toNat / 2 ^ j % 2 = 0 := by omega
    rw [if_neg (not_not.mpr hzero), hd]
    rfl

theorem binaryLoop_started (value : UInt32) {k : ℕ} (hk : k ≤ 32) (str : List UInt8) (pos : ℤ) :
    binaryLoop value k str pos true =
      storeAll str pos ((padded 2 k value.toNat).map asciiDigit) >>= fun str =>
        pure (str, pos + k, true) := by
  induction k generalizing str pos with
  | zero => simp [binaryLoop, padded, storeAll]
  | succ k ih =>
    rw [binaryLoop]
    rw [bit_eq value hk, padded, List.map_cons, storeAll, ite_self, if_pos rfl, bind_assoc]
    refine bind_congr fun str => ?_
    rw [ih (by omega)]
    refine bind_congr fun str => ?_
    congr 3
    omega

/- Before the first `1` nothing is stored. -/
theorem binaryLoop_eq (value : UInt32) {k : ℕ} (hk : k ≤ 32) (str : List UInt8) (pos : ℤ) :
    binaryLoop value k str pos false =
      storeAll str pos (((padded 2 k value.toNat).dropWhile (· = 0)).map asciiDigit) >>= fun str =>
        pure (str, pos + ((padded 2 k value.toNat).dropWhile (· = 0)).length,
          decide ((padded 2 k value.toNat).dropWhile (· = 0) ≠ [])) := by
  induction k generalizing str pos with
  | zero => simp [binaryLoop, padded, storeAll]
  | succ k ih =>
    rw [binaryLoop]
    rw [bit_eq value hk, padded]
    have hbit : value.toNat / 2 ^ k % 2 = 0 ∨ value.toNat / 2 ^ k % 2 = 1 := by omega
    obtain hd | hd := hbit
    · have hskip : (if asciiDigit 0 = 49 then true else false) = false := by decide
      rw [hd, hskip, if_neg Bool.false_ne_true, List.dropWhile_cons_of_pos (by decide)]
      exact ih (by omega) str pos
    · have hstart : (if asciiDigit 1 = 49 then true else false) = true := by decide
      rw [hd, if_pos hstart, hstart, List.dropWhile_cons_of_neg (by decide), List.map_cons, storeAll,
        bind_assoc]
      refine bind_congr fun str => ?_
      rw [binaryLoop_started value (by omega)]
      refine bind_congr fun str => ?_
      rw [List.length_cons, length_padded, decide_eq_true (List.cons_ne_nil _ _)]
      congr 3
      omega

theorem binaryToString_gives (value : UInt32) :
    Gives (binaryToString value) 33 (numeral 2 value.toNat) := by
  have hvalue : value.toNat < 2 ^ 32 := value.toNat_lt
  have hlen : (numeral 2 value.toNat).length ≤ 32 := by
    rw [length_numeral]
    exact length_digits_le (by decide) (by decide) hvalue
  refine ⟨by omega, zero_notMem_numeral (by decide) (by decide) _, fun str hroom => ?_⟩
  have htext : storeAll str 0 (numeral 2 value.toNat ++ [0]) = _ := storeAll_text (by omega)
  refine ⟨_, Eq.trans ?_ htext⟩
  rw [binaryToString, binaryLoop_eq value le_rfl, storeAll_append, numeral,
    reverse_digits (by decide) hvalue, bind_assoc]
  by_cases hnil : (padded 2 32 value.toNat).dropWhile (· = 0) = []
  · rw [if_pos hnil, hnil]
    simp [storeAll, asciiDigit]
  · rw [if_neg hnil]
    refine bind_congr fun str => ?_
    rw [pure_bind]
    simp [hnil, storeAll]

/-! ### The specifiers -/

theorem length_localArray (frame : ℕ → UInt8) (offset size : ℕ) :
    (localArray frame offset size).length = size := by
  rw [localArray, List.length_map, List.length_range]

section Conversion
variable {conv : List UInt8 → Except Fault (List UInt8)} {room : ℕ} {text : List UInt8}

theorem cstr_append_zero (str rest : List UInt8) : cstr (str ++ 0 :: rest) = cstr str := by
  induction str with
  | nil => simp [cstr]
  | cons c str ih =>
    by_cases hc : c = 0
    · simp [cstr, hc]
    · have hcons (l : List UInt8) : cstr (c :: l) = c :: cstr l := by simp [cstr, hc]
      rw [List.cons_append, hcons, hcons, ih]

theorem cstr_eq_self (h : 0 ∉ text) : cstr text = text := by
  refine List.takeWhile_eq_self_iff.mpr fun c hc => ?_
  have hne : c ≠ 0 := fun hz => h (hz ▸ hc)
  simpa using hne

theorem written_of_gives (h : Gives conv room text) {size : ℕ} (hsize : room ≤ size) :
    written conv size = text := by
  obtain ⟨rest, hrest⟩ := h.result (List.replicate size 0) (by rwa [List.length_replicate])
  rw [written, hrest]
  exact (cstr_append_zero text rest).trans (cstr_eq_self h.nonzero)

/- What the buffer of a conversion holds does not matter. -/
theorem put_of_gives (h : Gives conv room text) {str : List UInt8} (hroom : room ≤ str.length) (o : Out) :
    (conv str >>= fun str => Out.putString 0 str o) = o.putAll text := by
  obtain ⟨rest, hrest⟩ := h.result str hroom
  rw [hrest, pure_bind, putString_eq, cstr_eq_self h.nonzero]

/- The same for the local arrays of a round. -/
theorem convert_of_gives (h : Gives conv room text) (frame : ℕ → UInt8) (offset : ℕ) {size : ℕ}
    (hsize : room ≤ size) (args : List Arg) (o : Out) :
    (do
      let str ← conv (localArray frame offset size)
      let o ← Out.putString 0 str o
      pure (args, o)) = o.putAll (written conv size) >>= fun o => pure (args, o) := by
  rw [← bind_assoc, put_of_gives h (by rwa [length_localArray]), written_of_gives h hsize]

end Conversion

/- Nor does what `temp` holds. -/
theorem written_uint (value : UInt32) (frame : ℕ → UInt8) :
    written (uintToAscii value (localArray frame 16 16)) 16 =
      written (uintToAscii value (List.replicate 16 0)) 16 := by
  have hlength : 10 ≤ (localArray frame 16 16).length := by rw [length_localArray]; decide
  have hlocal := uintToAscii_gives value hlength
  have hsize : 10 ≤ (List.replicate 16 (0 : UInt8)).length := by rw [List.length_replicate]; decide
  have hzeros := uintToAscii_gives value hsize
  rw [written_of_gives hlocal (by decide), written_of_gives hzeros (by decide)]

/- A case of the `switch` puts what takes the place of its specifier. -/
theorem convert_spec {spec : Specifier} {args args' : List Arg} {text : List UInt8}
    (h : replacement args spec = some (text, args')) (frame : ℕ → UInt8) (o : Out) :
    convert frame args o spec = o.putAll text >>= fun o => pure (args', o) := by
  cases spec with
  | d =>
    obtain ⟨⟨n, rest⟩, hnext, htext⟩ := Option.bind_eq_some_iff.mp h
    cases htext
    rw [convert, vaArg, hnext]
    exact convert_of_gives (intToAscii_gives n) frame 0 (by decide) args' o
  | u =>
    obtain ⟨⟨n, rest⟩, hnext, htext⟩ := Option.bind_eq_some_iff.mp h
    cases htext
    have htemp : 10 ≤ (localArray frame 16 16).length := by rw [length_localArray]; decide
    rw [convert, vaArg, hnext, ← written_uint n frame]
    exact convert_of_gives (uintToAscii_gives n htemp) frame 0 (by decide) args' o
  | x =>
    obtain ⟨⟨n, rest⟩, hnext, htext⟩ := Option.bind_eq_some_iff.mp h
    cases htext
    rw [convert, vaArg, hnext]
    exact convert_of_gives (hexToStringTrimmed_gives n) frame 0 le_rfl args' o
  | b =>
    obtain ⟨⟨n, rest⟩, hnext, htext⟩ := Option.bind_eq_some_iff.mp h
    cases htext
    rw [convert, vaArg, hnext, ← written_of_gives (binaryToString_gives n) le_rfl]
    exact convert_of_gives (binaryToString_gives n) frame 0 le_rfl args' o
  | s =>
    obtain ⟨⟨str, rest⟩, hnext, htext⟩ := Option.bind_eq_some_iff.mp h
    cases htext
    rw [convert, vaArg, hnext, ← putString_eq str [] 0]
    rfl
  | c =>
    obtain ⟨⟨n, rest⟩, hnext, htext⟩ := Option.bind_eq_some_iff.mp h
    cases htext
    rw [convert, vaArg, hnext, ← put_eq]
    rfl
  | percent =>
    cases h
    rw [convert, put_eq]
  | other c =>
    cases h
    rw [convert, putAll_cons, bind_assoc]
    simp only [put_eq]

/-! ### The format -/

theorem cstr_cons_zero (format : List UInt8) : cstr (0 :: format) = [] := by simp [cstr]

theorem cstr_cons {c : UInt8} (hc : c ≠ 0) (format : List UInt8) :
    cstr (c :: format) = c :: cstr format := by simp [cstr, hc]

/- The loop puts the expansion of its format. -/
theorem printfLoop_eq (frame : ℕ → ℕ → UInt8) (format : List UInt8) (args : List Arg) (o : Out)
    {text : List UInt8} (h : expansion (cstr format) args = some text) :
    printfLoop frame format args o = o.putAll text := by
  induction format, args, o using printfLoop.induct generalizing text with
  | case1 args o =>
    cases h
    rw [printfLoop, putAll_nil]
  | case2 args o =>
    rw [cstr_cons_zero] at h
    cases h
    rw [printfLoop, if_pos rfl, putAll_nil]
  | case3 c args o hc =>
    rw [cstr_cons hc] at h
    cases h
    rw [printfLoop, if_neg hc]
    exact put_eq o c
  | case4 next format args o =>
    rw [cstr_cons_zero] at h
    cases h
    rw [printfLoop, if_pos rfl, putAll_nil]
  | case5 c next format args o hc hspec ih =>
    rw [cstr_cons hc, cstr_cons hspec.2, expansion, if_pos hspec.1] at h
    obtain ⟨⟨taken, args'⟩, hreplace, hrest⟩ := Option.bind_eq_some_iff.mp h
    obtain ⟨rest, hexpand, htext⟩ := Option.bind_eq_some_iff.mp hrest
    cases htext
    rw [printfLoop, if_neg hc, if_pos hspec, convert_spec hreplace, bind_assoc, putAll_append]
    refine bind_congr fun o => ?_
    rw [pure_bind]
    exact ih args' o hexpand
  | case6 c next format args o hc hspec ih =>
    rw [printfLoop, if_neg hc, if_neg hspec]
    by_cases hnext : next = 0
    · -- a percent sign at the very end is a character like the others
      rw [cstr_cons hc, hnext, cstr_cons_zero] at h
      cases h
      rw [putAll_cons]
      refine bind_congr fun o => ih o ?_
      rw [hnext, cstr_cons_zero]
      rfl
    · have hplain : c ≠ percentSign := fun heq => hspec ⟨heq, hnext⟩
      rw [cstr_cons hc, cstr_cons hnext, expansion, if_neg hplain] at h
      obtain ⟨rest, hexpand, htext⟩ := Option.bind_eq_some_iff.mp h
      cases htext
      rw [putAll_cons]
      refine bind_congr fun o => ih o ?_
      rw [cstr_cons hnext]
      exact hexpand

section Printf
variable {t : TextMode} {s : Console} {format text : List UInt8} {args : List Arg}

/- With a console, the expansion and its NUL are stored one after the other. -/
theorem printf_eq (h : expansion (cstr format) args = some text) (frame : ℕ → ℕ → UInt8)
    (hconsole : (!s.available && !s.fb.ready) = false) :
    printf t frame s format args =
      storeAll (localArray (frame format.length) 0 256) 0 (text ++ [0]) >>= fun buffer =>
        pure (kprint t s buffer) := by
  rw [printf, hconsole, if_neg Bool.false_ne_true, printfLoop_eq frame format args _ h, Out.putAll,
    storeAll_append, bind_assoc, bind_assoc]
  refine bind_congr fun buffer => ?_
  rw [pure_bind, storeAll]
  simp only [storeAll, bind_pure]

theorem kprintLoop_cstr (t : TextMode) (s : Console) (message : List UInt8) (col row : ℤ) :
    kprintLoop t s (cstr message) col row = kprintLoop t s message col row := by
  induction message generalizing s col row with
  | nil => rfl
  | cons c message ih =>
    by_cases hc : c = 0
    · rw [hc, cstr_cons_zero, kprintLoop, kprintLoop, if_pos rfl]
    · rw [cstr_cons hc, kprintLoop, kprintLoop, if_neg hc, if_neg hc]
      exact ih _ _ _

theorem kprint_cstr (t : TextMode) (s : Console) (message : List UInt8) :
    kprint t s (cstr message) = kprint t s message := by
  simp only [kprint, kprintAt, kprintLoop_cstr]

/-- `printf` prints the expansion of its format, up to the first NUL in it. -/
theorem printf_expands (t : TextMode) (frame : ℕ → ℕ → UInt8) (s : Console)
    (h : expansion (cstr format) args = some text) (hlen : text.length ≤ 255) :
    printf t frame s format args = .ok (kprint t s (cstr text)) := by
  by_cases hconsole : (!s.available && !s.fb.ready) = true
  · rw [printf, if_pos hconsole, kprint, if_pos hconsole]
    rfl
  · have hstored : storeAll (localArray (frame format.length) 0 256) 0 (text ++ [0]) = _ :=
      storeAll_text (by rw [length_localArray]; omega)
    rw [printf_eq h frame (eq_false_of_ne_true hconsole), hstored, pure_bind, kprint_cstr,
      ← kprint_cstr t s (text ++ _), cstr_append_zero, kprint_cstr]
    rfl

/- A console on the VGA text screen. -/
def vgaConsole : Console :=
  ⟨true, true, ⟨fun _ => 0x20, 0, 0⟩, ⟨false, ⟨0, 0, 0, 0, 0, 0⟩, fbConsoleStateInit, fun _ => 0⟩⟩

/- `printf("%d%% %s", -7, "ok")`. -/
theorem printf_expands_percent : printf vgaText (fun _ _ => 0xCC) vgaConsole
    [37, 100, 37, 37, 32, 37, 115] [.int (-7), .string [111, 107]] =
      .ok (kprint vgaText vgaConsole [45, 55, 37, 32, 111, 107]) := by
  have hint : written (intToAscii (-7)) 16 = [45, 55] := by
    rw [written_of_gives (intToAscii_gives (-7)) (by decide), intText]
    have hsign : (-7 : Int32) < 0 := by decide
    have hmin : (-7 : Int32) ≠ Int32.minValue := by decide
    have habs : (-7 : Int32).toInt.natAbs = 7 := by decide
    rw [if_neg hmin, if_pos hsign, habs]
    simp [numeral, digits, asciiDigit]
  have hexpand : expansion (cstr [37, 100, 37, 37, 32, 37, 115]) [.int (-7), .string [111, 107]] =
      some (written (intToAscii (-7)) 16 ++ [37, 32, 111, 107]) := rfl
  rw [hint] at hexpand
  exact printf_expands vgaText (fun _ _ => 0xCC) vgaConsole hexpand (by decide)

/- A longer expansion is written beyond the buffer. -/
theorem printf_overruns (h : expansion (cstr format) args = some text) (frame : ℕ → ℕ → UInt8)
    (hconsole : (!s.available && !s.fb.ready) = false) (hlong : 255 < text.length) :
    printf t frame s format args = .error (.write 256) := by
  have hover : storeAll ([] ++ localArray (frame format.length) 0 256) 0 (text ++ [0]) = _ :=
    storeAll_overruns rfl (by
      rw [length_localArray, List.length_append, List.length_singleton]
      omega)
  rw [printf_eq h frame hconsole, ← List.nil_append (localArray _ 0 256), hover, length_localArray]
  rfl

/-- `printf` stays inside its buffer if and only if it has no console or its
expansion is at most 255 characters long. -/
theorem printf_in_bounds (t : TextMode) (frame : ℕ → ℕ → UInt8) (s : Console)
    (h : expansion (cstr format) args = some text) :
    (∀ i, printf t frame s format args ≠ .error (.write i)) ↔
      (s.available = false ∧ s.fb.ready = false) ∨ text.length ≤ 255 := by
  have hoff : (!s.available && !s.fb.ready) = true ↔ s.available = false ∧ s.fb.ready = false := by
    simp
  by_cases hconsole : (!s.available && !s.fb.ready) = true
  · refine iff_of_true (fun i heq => ?_) (.inl (hoff.mp hconsole))
    rw [printf, if_pos hconsole] at heq
    cases heq
  rw [← hoff, or_iff_right hconsole]
  constructor
  · intro hsafe
    by_contra hlong
    exact hsafe 256 (printf_overruns h frame (eq_false_of_ne_true hconsole) (Nat.lt_of_not_le hlong))
  · intro hshort i heq
    have hstored : storeAll (localArray (frame format.length) 0 256) 0 (text ++ [0]) = _ :=
      storeAll_text (by rw [length_localArray]; omega)
    rw [printf_eq h frame (eq_false_of_ne_true hconsole), hstored, pure_bind] at heq
    cases heq

/- `printf("100%%")` -/
theorem printf_in_bounds_percent :
    (∀ i, printf vgaText (fun _ _ => 0xCC) vgaConsole [49, 48, 48, 37, 37] [] ≠ .error (.write i)) ↔
      (vgaConsole.available = false ∧ vgaConsole.fb.ready = false) ∨
        ([49, 48, 48, 37] : List UInt8).length ≤ 255 :=
  printf_in_bounds vgaText (fun _ _ => 0xCC) vgaConsole rfl

/- `printf("%s", s)` for a string of 256 characters. -/
theorem printf_overruns_string : ¬ ∀ i, printf vgaText (fun _ _ => 0xCC) vgaConsole [37, 115]
    [.string (List.replicate 256 97)] ≠ .error (.write i) := by
  intro hsafe
  have hstring : cstr (List.replicate 256 97) = List.replicate 256 97 := by
    refine cstr_eq_self fun hzero => ?_
    exact absurd (List.eq_of_mem_replicate hzero) (by decide)
  have hexpand : expansion (cstr [37, 115]) [.string (List.replicate 256 97)] =
      some (cstr (List.replicate 256 97) ++ []) := rfl
  refine hsafe 256 (printf_overruns hexpand (fun _ _ => 0xCC) rfl ?_)
  rw [hstring, List.append_nil, List.length_replicate]
  decide

end Printf

end CasseOS.Screen

import CasseOS.Lib.Ring

/-! # Channels

A ring read in steps: the reader finds the ring non-empty, copies the slot at
the tail, then moves the tail. Pushes may come between any two of these. A
channel is the ring, the reader and what it has read so far; `accepted` lists
what a run offers while there is room, and the run reads these elements in
order, each once; a read that has begun ends with the next of them. -/

namespace CasseOS
variable {α : Type*} {cap : ℕ}

namespace Ring

theorem next_tail_lt (r : Ring cap α) : next cap r.tail < cap := next_lt r.tail_lt

/- The ring after its first element is taken. -/
def advance (r : Ring cap α) : Ring cap α :=
  ⟨r.buf, r.head, next cap r.tail, r.head_lt, next_tail_lt r⟩

theorem contents_advance {r : Ring cap α} (h : r.head ≠ r.tail) :
    r.contents = r.buf r.tail :: r.advance.contents := by
  obtain ⟨a, r', hpop, hcontents⟩ := pop_contents h
  have hpair := (if_neg h).symm.trans hpop
  cases hpair
  exact hcontents

theorem push_full {r : Ring cap α} (h : ¬ r.used + 1 < cap) (a : α) : r.push a = r := by
  have hfull := (next_ne_iff r.head_lt r.tail_lt).not.mpr h
  exact if_neg hfull

end Ring

inductive Reader (α : Type*) where
  | idle
  | tested
  | copied (a : α)

structure Channel (cap : ℕ) (α : Type*) where
  ring : Ring cap α
  reader : Reader α
  read : List α

namespace Channel

def push (c : Channel cap α) (a : α) : Channel cap α := {c with ring := c.ring.push a}

def readStep (c : Channel cap α) : Channel cap α :=
  match c.reader with
  | .idle => if c.ring.head = c.ring.tail then c else {c with reader := .tested}
  | .tested => {c with reader := .copied (c.ring.buf c.ring.tail)}
  | .copied a => ⟨c.ring.advance, .idle, c.read ++ [a]⟩

/- What has been read and what is still in the ring. -/
def stored (c : Channel cap α) : List α := c.read ++ c.ring.contents

/- What the reader knows of the first element. -/
def Ok (c : Channel cap α) : Prop :=
  match c.reader with
  | .idle => True
  | .tested => c.ring.contents ≠ []
  | .copied a => c.ring.contents.head? = some a

theorem ne_of_contents {c : Channel cap α} (h : c.ring.contents ≠ []) : c.ring.head ≠ c.ring.tail :=
  fun he => h (Ring.contents_of_empty he)

/- Without pushes in between, three steps pop the ring. -/
theorem readStep_thrice {c : Channel cap α} (h : c.reader = .idle) :
    c.readStep.readStep.readStep =
      match c.ring.pop with
      | some (a, r) => ⟨r, .idle, c.read ++ [a]⟩
      | none => c := by
  obtain ⟨ring, reader, read⟩ := c
  obtain rfl := h
  by_cases hempty : ring.head = ring.tail
  · have hstay : readStep ⟨ring, .idle, read⟩ = ⟨ring, .idle, read⟩ := if_pos hempty
    rw [hstay, hstay, hstay, Ring.pop_empty hempty]
  · have hgo : readStep ⟨ring, .idle, read⟩ = ⟨ring, .tested, read⟩ := if_neg hempty
    rw [hgo, Ring.pop, if_neg hempty]
    rfl

/-! ### One step -/

theorem push_stored (c : Channel cap α) (a : α) :
    (c.push a).stored = if c.ring.used + 1 < cap then c.stored ++ [a] else c.stored := by
  unfold stored push
  split
  next h => rw [Ring.push_contents _ _ h, List.append_assoc]
  next h => rw [Ring.push_full h]

/- A push leaves the first element where it is. -/
theorem push_ok {c : Channel cap α} (h : c.Ok) (a : α) : (c.push a).Ok := by
  have hcontents : (c.ring.push a).contents = c.ring.contents ++ [a] ∨
      (c.ring.push a).contents = c.ring.contents := by
    by_cases hroom : c.ring.used + 1 < cap
    · exact Or.inl (Ring.push_contents _ _ hroom)
    · exact Or.inr (congrArg _ (Ring.push_full hroom a))
  unfold Ok at h ⊢
  simp only [push]
  cases hr : c.reader with
  | idle => trivial
  | tested =>
    rw [hr] at h
    obtain hc | hc := hcontents
    · simp [hc]
    · exact hc ▸ h
  | copied e =>
    rw [hr] at h
    obtain hc | hc := hcontents
    · rw [hc, List.head?_append, h]
      rfl
    · exact hc ▸ h

theorem readStep_stored {c : Channel cap α} (h : c.Ok) : c.readStep.stored = c.stored := by
  unfold readStep
  unfold Ok at h
  cases hr : c.reader with
  | idle =>
    dsimp only
    split <;> rfl
  | tested => rfl
  | copied a =>
    rw [hr] at h
    have hne : c.ring.contents ≠ [] := by
      rintro he
      rw [he] at h
      exact absurd h (by simp)
    have hadv := Ring.contents_advance (ne_of_contents hne)
    have hhead : c.ring.buf c.ring.tail = a := by
      rw [hadv] at h
      exact Option.some.inj h
    unfold stored
    rw [hadv, hhead]
    simp

theorem readStep_ok {c : Channel cap α} (h : c.Ok) : c.readStep.Ok := by
  unfold readStep
  cases hr : c.reader with
  | idle =>
    dsimp only
    split
    next => exact h
    next hne =>
      show c.ring.contents ≠ []
      rw [Ring.contents_advance hne]
      exact List.cons_ne_nil _ _
  | tested =>
    rw [Ok, hr] at h
    show c.ring.contents.head? = some (c.ring.buf c.ring.tail)
    rw [Ring.contents_advance (ne_of_contents h)]
    rfl
  | copied a => trivial

/- What has been read stays read. -/
theorem readStep_read (c : Channel cap α) : c.read.length ≤ c.readStep.read.length := by
  unfold readStep
  cases c.reader with
  | idle =>
    dsimp only
    split <;> rfl
  | tested => rfl
  | copied a => simp

end Channel

/-! ### Runs -/

section Run
variable {S A : Type*} (step : S → A → S) (view : S → Channel cap α) (offered : S → A → Option α)

/- The elements offered along a run while fewer than `cap - 1` are unread; `n`
is the number of unread ones, those offered and accepted but not yet read. -/
def accepted : S → ℕ → List A → List α
  | _, _, [] => []
  | s, n, a :: as =>
    match offered s a with
    | some e => if n + 1 < cap then e :: accepted (step s a) (n + 1) as else accepted (step s a) n as
    | none => accepted (step s a) (n - ((view (step s a)).read.length - (view s).read.length)) as

/- Each action offers an element, takes a step of the reader or leaves the
channel alone. -/
def Drives : Prop :=
  ∀ s a, match offered s a with
    | some e => view (step s a) = (view s).push e
    | none => view (step s a) = view s ∨ view (step s a) = (view s).readStep

theorem stored_length (c : Channel cap α) : c.stored.length = c.read.length + c.ring.used := by
  rw [Channel.stored, List.length_append, Ring.length_contents]

theorem stored_run (hd : Drives step view offered) (s : S) (hok : (view s).Ok) (as : List A) :
    (view (as.foldl step s)).stored =
      (view s).stored ++ accepted step view offered s (view s).ring.used as := by
  induction as generalizing s with
  | nil => simp [accepted]
  | cons a as ih =>
    have hs := hd s a
    rw [List.foldl_cons, accepted]
    cases ho : offered s a with
    | some e =>
      simp only [ho] at hs
      have hstored := Channel.push_stored (view s) e
      have hlen := congrArg List.length hstored
      have hread : ((view s).push e).read = (view s).read := rfl
      rw [ih _ (hs ▸ Channel.push_ok hok e), hs, hstored]
      by_cases hroom : (view s).ring.used + 1 < cap
      · have hused : ((view s).push e).ring.used = (view s).ring.used + 1 := by
          rw [if_pos hroom, List.length_append, stored_length, stored_length, hread,
            List.length_singleton] at hlen
          omega
        simp only [if_pos hroom, hused, List.append_assoc, List.singleton_append]
      · have hused : ((view s).push e).ring.used = (view s).ring.used := by
          rw [if_neg hroom, stored_length, stored_length, hread] at hlen
          omega
        simp only [if_neg hroom, hused]
    | none =>
      simp only [ho] at hs
      have hkeep : (view (step s a)).Ok ∧ (view (step s a)).stored = (view s).stored ∧
          (view s).read.length ≤ (view (step s a)).read.length := by
        obtain he | he := hs
        · rw [he]
          exact ⟨hok, rfl, le_rfl⟩
        · rw [he]
          exact ⟨Channel.readStep_ok hok, Channel.readStep_stored hok, Channel.readStep_read _⟩
      obtain ⟨hok', hstored, hle⟩ := hkeep
      have hlen := congrArg List.length hstored
      rw [stored_length, stored_length] at hlen
      have hused : (view (step s a)).ring.used = (view s).ring.used -
          ((view (step s a)).read.length - (view s).read.length) := by
        omega
      rw [ih _ hok', hstored, hused]

end Run

/-! ### Delivery

A reader that has started on the first element gets it after three of its steps,
whatever is pushed in between. -/

/- The steps of the reader that are done. -/
def Reader.stage : Reader α → ℕ
  | .idle => 0
  | .tested => 1
  | .copied _ => 2

namespace Channel

theorem push_first {c : Channel cap α} {e : α} {rest : List α} (h : c.ring.contents = e :: rest)
    (a : α) : ∃ rest', (c.push a).ring.contents = e :: rest' := by
  by_cases hroom : c.ring.used + 1 < cap
  · have hpush := Ring.push_contents c.ring a hroom
    rw [h] at hpush
    exact ⟨rest ++ [a], hpush⟩
  · exact ⟨rest, (congrArg Ring.contents (Ring.push_full hroom a)).trans h⟩

/- A step of the reader is the next one of the three; the third delivers. -/
theorem readStep_first {c : Channel cap α} (hok : c.Ok) {e : α} {rest : List α}
    (h : c.ring.contents = e :: rest) :
    (c.reader.stage = 2 ∧ c.readStep.reader = .idle ∧ c.readStep.read = c.read ++ [e]) ∨
      (c.readStep.reader.stage = c.reader.stage + 1 ∧ c.readStep.ring = c.ring ∧
        c.readStep.read = c.read) := by
  have hne : c.ring.head ≠ c.ring.tail := ne_of_contents (by rw [h]; exact List.cons_ne_nil e rest)
  unfold readStep
  cases hr : c.reader with
  | idle =>
    dsimp only
    rw [if_neg hne]
    exact Or.inr ⟨rfl, rfl, rfl⟩
  | tested => exact Or.inr ⟨rfl, rfl, rfl⟩
  | copied a =>
    rw [Ok, hr] at hok
    have ha : c.ring.contents.head? = some a := hok
    rw [h] at ha
    cases ha
    exact Or.inl ⟨rfl, rfl, rfl⟩

end Channel

section Delivery
variable {S A : Type*} (step : S → A → S) (view : S → Channel cap α) (reads : A → Bool)

/- The actions that are steps of the reader; the others push or leave the channel
alone. -/
def ReadBy : Prop :=
  ∀ s a, if reads a then view (step s a) = (view s).readStep
    else view (step s a) = view s ∨ ∃ e, view (step s a) = (view s).push e

variable {step view reads} (hd : ReadBy step view reads)
include hd

theorem ok_run {s : S} (hok : (view s).Ok) (as : List A) : (view (as.foldl step s)).Ok := by
  induction as generalizing s with
  | nil => exact hok
  | cons a as ih =>
    have hs := hd s a
    apply ih
    split at hs
    · exact hs ▸ Channel.readStep_ok hok
    · obtain hs | ⟨e, hs⟩ := hs
      · exact hs ▸ hok
      · exact hs ▸ Channel.push_ok hok e

theorem no_reads {s : S} {as : List A} (h : as.countP reads = 0) :
    (view (as.foldl step s)).read = (view s).read ∧
      (view (as.foldl step s)).reader = (view s).reader := by
  induction as generalizing s with
  | nil => exact ⟨rfl, rfl⟩
  | cons a as ih =>
    rw [List.countP_cons] at h
    have ha : reads a = false := by
      cases hr : reads a with
      | false => rfl
      | true =>
        rw [hr, if_pos rfl] at h
        omega
    have hs := hd s a
    rw [ha, if_neg Bool.false_ne_true] at hs
    obtain ⟨hread, hreader⟩ := ih (s := step s a) (by omega)
    rw [List.foldl_cons, hread, hreader]
    obtain hs | ⟨e, hs⟩ := hs
    · rw [hs]
      exact ⟨rfl, rfl⟩
    · rw [hs]
      exact ⟨rfl, rfl⟩

theorem delivered_run {s : S} (hok : (view s).Ok) {e : α} {rest : List α}
    (h : (view s).ring.contents = e :: rest) {as : List A}
    (hcount : (view s).reader.stage + as.countP reads = 3) :
    (view (as.foldl step s)).read = (view s).read ++ [e] ∧
      (view (as.foldl step s)).reader = .idle := by
  induction as generalizing s rest with
  | nil =>
    have hstage : (view s).reader.stage ≤ 2 := by
      cases (view s).reader <;> simp [Reader.stage]
    rw [List.countP_nil] at hcount
    omega
  | cons a as ih =>
    have hs := hd s a
    rw [List.countP_cons] at hcount
    rw [List.foldl_cons]
    cases ha : reads a with
    | false =>
      rw [ha, if_neg Bool.false_ne_true] at hs hcount
      obtain hs | ⟨b, hs⟩ := hs
      · have hfirst : (view (step s a)).ring.contents = e :: rest := by rw [hs]; exact h
        have hstep := ih (s := step s a) (hs ▸ hok) hfirst (by rw [hs]; omega)
        rw [hs] at hstep
        exact hstep
      · obtain ⟨rest', hfirst⟩ := Channel.push_first h b
        have hreader : ((view s).push b).reader = (view s).reader := rfl
        rw [← hs] at hfirst
        have hstep := ih (s := step s a) (hs ▸ Channel.push_ok hok b) hfirst
          (by rw [hs, hreader]; omega)
        rw [hs] at hstep
        exact hstep
    | true =>
      rw [ha, if_pos rfl] at hs hcount
      obtain ⟨hstage, hidle, hread⟩ | ⟨hstage, hring, hread⟩ := Channel.readStep_first hok h
      · -- the third step; the others in the list are not the reader's
        have hrest : as.countP reads = 0 := by omega
        obtain ⟨hread', hreader'⟩ := no_reads hd (s := step s a) hrest
        rw [hread', hreader', hs]
        exact ⟨hread, hidle⟩
      · have hfirst : (view (step s a)).ring.contents = e :: rest := by rw [hs, hring]; exact h
        have hstep := ih (s := step s a) (hs ▸ Channel.readStep_ok hok) hfirst
          (by rw [hs, hstage]; omega)
        rw [hs, hread] at hstep
        exact hstep

end Delivery

/-! ### Several elements at once -/

namespace Ring

def pushAll (r : Ring cap α) (l : List α) : Ring cap α := l.foldl push r

theorem pushAll_contents (r : Ring cap α) (l : List α) :
    (r.pushAll l).contents = r.contents ++ l.take (cap - 1 - r.used) := by
  induction l generalizing r with
  | nil => simp [pushAll]
  | cons a l ih =>
    have hnext : r.pushAll (a :: l) = (r.push a).pushAll l := rfl
    rw [hnext, ih]
    by_cases hroom : r.used + 1 < cap
    · have hpush := push_contents r a hroom
      have hused : (r.push a).used = r.used + 1 := by
        rw [← length_contents, hpush, List.length_append, length_contents]
        rfl
      have hleft : cap - 1 - r.used = cap - 1 - (r.used + 1) + 1 := by omega
      simp [hpush, hused, hleft]
    · have hfull : cap - 1 - r.used = 0 := by omega
      simp [push_full hroom, hfull]

end Ring

/- `kept` is what a queue has taken of the elements offered, in order, with `lost` of
them dropped. -/
structure Kept (kept offered : List α) (lost : ℕ) : Prop where
  sublist : kept.Sublist offered
  count : kept.length + lost = offered.length

theorem Kept.nil : Kept ([] : List α) [] 0 := ⟨List.Sublist.refl _, rfl⟩

/- Nothing is dropped: everything offered is there. -/
theorem Kept.eq_of_zero {kept offered : List α} (h : Kept kept offered 0) : kept = offered :=
  h.sublist.eq_of_length h.count

theorem Kept.take {kept offered : List α} {lost : ℕ} (h : Kept kept offered lost) (n : ℕ)
    (l : List α) : Kept (kept ++ l.take n) (offered ++ l) (lost + (l.length - n)) := by
  have hcount := h.count
  refine ⟨h.sublist.append (List.take_sublist n l), ?_⟩
  simp only [List.length_append, List.length_take]
  omega

namespace Channel

def pushAll (c : Channel cap α) (l : List α) : Channel cap α := {c with ring := c.ring.pushAll l}

theorem pushAll_stored (c : Channel cap α) (l : List α) :
    (c.pushAll l).stored = c.stored ++ l.take (cap - 1 - c.ring.used) := by
  rw [stored, pushAll, Ring.pushAll_contents, ← List.append_assoc]
  rfl

theorem pushAll_ok {c : Channel cap α} (h : c.Ok) (l : List α) : (c.pushAll l).Ok := by
  induction l generalizing c with
  | nil => exact h
  | cons a l ih => exact ih (push_ok h a)

end Channel

end CasseOS

import Mathlib.Algebra.Group.Nat.Defs
import Mathlib.Data.List.Basic
import Mathlib.Data.List.TakeWhile
import Mathlib.Data.Nat.Basic

/-! # A logfmt reader

Words stand between spaces outside double quotes. A word is a key, or a key and the value
behind its first `=`; a quoted value has its escapes undone. -/

namespace OtelBootstrap.Logfmt

/-! ## Words -/

/-- Where the reader stands: outside quotes, inside them, or behind a backslash there. -/
inductive Mode where
  | bare
  | quoted
  | escaped
  deriving DecidableEq, Repr

def Mode.next : Mode → Char → Mode
  | .bare, c => if c = '\"' then .quoted else .bare
  | .quoted, c => if c = '\"' then .bare else if c = '\\' then .escaped else .quoted
  | .escaped, _ => .quoted

/-- Puts characters in front of the first word. -/
def glue (front : List Char) (ws : List (List Char)) : List (List Char) :=
  (front ++ ws.headD []) :: ws.tail

/-- The words of a text, read from where the reader stands. -/
def words : Mode → List Char → List (List Char)
  | _, [] => [[]]
  | m, c :: cs =>
      if m = .bare ∧ c = ' ' then [] :: words .bare cs
      else glue [c] (words (m.next c) cs)

/-- Where the reader stands behind a text it did not split, if it did not. -/
def scan : Mode → List Char → Option Mode
  | m, [] => some m
  | m, c :: cs => if m = .bare ∧ c = ' ' then none else scan (m.next c) cs

theorem scan_append {m m' : Mode} {front : List Char} (h : scan m front = some m')
    (cs : List Char) : scan m (front ++ cs) = scan m' cs := by
  induction front generalizing m with
  | nil =>
      cases h
      rfl
  | cons c front ih =>
      rw [scan] at h
      rw [List.cons_append, scan]
      split at h
      · cases h
      · rename_i hc
        rw [if_neg hc]
        exact ih h

theorem scan_bare {cs : List Char} (h : ∀ c ∈ cs, c ≠ ' ' ∧ c ≠ '\"') :
    scan .bare cs = some .bare := by
  induction cs with
  | nil => rfl
  | cons c cs ih =>
      have hc := h c List.mem_cons_self
      rw [scan, if_neg (fun hsplit => hc.1 hsplit.2), Mode.next, if_neg hc.2]
      exact ih fun c' hc' => h c' (List.mem_cons_of_mem c hc')

theorem scan_quoted {cs : List Char} (h : ∀ c ∈ cs, c ≠ '\"' ∧ c ≠ '\\') :
    scan .quoted cs = some .quoted := by
  induction cs with
  | nil => rfl
  | cons c cs ih =>
      have hc := h c List.mem_cons_self
      rw [scan, if_neg (fun hsplit => Mode.noConfusion hsplit.1), Mode.next, if_neg hc.1,
        if_neg hc.2]
      exact ih fun c' hc' => h c' (List.mem_cons_of_mem c hc')

theorem glue_glue (front back : List Char) (ws : List (List Char)) :
    glue front (glue back ws) = glue (front ++ back) ws := by
  simp [glue]

/-- There is always a first word, possibly empty. -/
theorem glue_nil_words (m : Mode) (cs : List Char) : glue [] (words m cs) = words m cs := by
  cases cs with
  | nil => rfl
  | cons c cs =>
      rw [words]
      split
      · rfl
      · rw [glue_glue, List.nil_append]

/-- What was not split stands in front of the first word of what follows. -/
theorem words_append {m m' : Mode} {front : List Char} (h : scan m front = some m')
    (cs : List Char) : words m (front ++ cs) = glue front (words m' cs) := by
  induction front generalizing m with
  | nil =>
      cases h
      exact (glue_nil_words m' cs).symm
  | cons c front ih =>
      rw [scan] at h
      rw [List.cons_append, words]
      split at h
      · cases h
      · rename_i hc
        rw [if_neg hc, ih h, glue_glue, List.singleton_append]

/-- Words that no space splits and no open quote runs on from come back from a line that
puts one space between them. -/
theorem words_intercalate {ws : List (List Char)} (hne : ws ≠ [])
    (h : ∀ w ∈ ws, scan .bare w = some .bare) :
    words .bare (List.intercalate [' '] ws) = ws := by
  induction ws with
  | nil => exact (hne rfl).elim
  | cons w ws ih =>
      have hw : scan .bare w = some .bare := h w List.mem_cons_self
      cases ws with
      | nil =>
          have hword := words_append hw []
          rw [List.append_nil] at hword
          rw [List.intercalate_singleton, hword]
          simp [glue, words]
      | cons w' ws =>
          have htail := ih (List.cons_ne_nil _ _) fun w'' hw'' =>
            h w'' (List.mem_cons_of_mem w hw'')
          rw [List.intercalate_cons_cons, List.append_assoc, words_append hw, List.singleton_append,
            words, if_pos ⟨rfl, rfl⟩, htail]
          simp [glue]

theorem mem_intercalate {α : Type*} {sep x : α} {xs : List (List α)}
    (h : x ∈ [sep].intercalate xs) : x = sep ∨ ∃ ys ∈ xs, x ∈ ys := by
  induction xs with
  | nil => exact (List.not_mem_nil h).elim
  | cons ys xs ih =>
      cases xs with
      | nil =>
          rw [List.intercalate_singleton] at h
          exact Or.inr ⟨ys, List.mem_singleton_self ys, h⟩
      | cons ys' xs =>
          rw [List.intercalate_cons_cons] at h
          rcases List.mem_append.mp h with h | h
          · rcases List.mem_append.mp h with h | h
            · exact Or.inr ⟨ys, List.mem_cons_self, h⟩
            · exact Or.inl (List.mem_singleton.mp h)
          · rcases ih h with hsep | ⟨zs, hzs, hx⟩
            · exact Or.inl hsep
            · exact Or.inr ⟨zs, List.mem_cons_of_mem ys hzs, hx⟩

/-! ## Values -/

/-- The value of a lowercase hexadecimal digit. -/
def hexValue? (c : Char) : Option ℕ :=
  if '0' ≤ c ∧ c ≤ '9' then some (c.toNat - 48)
  else if 'a' ≤ c ∧ c ≤ 'f' then some (c.toNat - 87)
  else none

theorem hexValue?_digitChar : ∀ d < 16, hexValue? d.digitChar = some d := by
  decide

/-- What a quoted value is being read as: its text, what a backslash or a `\u` started, or
the digits of a scalar value. -/
inductive Reading where
  | text
  | escape
  | brace
  | hex (n : ℕ)

/-- The text of a quoted value, up to the closing quote it must end in. -/
def unquote : Reading → List Char → Option (List Char)
  | _, [] => none
  | .text, c :: cs =>
      if c = '\"' then if cs = [] then some [] else none
      else if c = '\\' then unquote .escape cs
      else (unquote .text cs).map (c :: ·)
  | .escape, c :: cs =>
      if c = '\"' ∨ c = '\\' then (unquote .text cs).map (c :: ·)
      else if c = 'n' then (unquote .text cs).map ('\n' :: ·)
      else if c = 'u' then unquote .brace cs
      else none
  | .brace, c :: cs => if c = '\x7b' then unquote (.hex 0) cs else none
  | .hex n, c :: cs =>
      if c = '\x7d' then
        if n.isValidChar then (unquote .text cs).map (Char.ofNat n :: ·) else none
      else (hexValue? c).bind fun d => unquote (.hex (16 * n + d)) cs

theorem unquote_hex_digitChar (n : ℕ) {d : ℕ} (hd : d < 16) (cs : List Char) :
    unquote (.hex n) (d.digitChar :: cs) = unquote (.hex (16 * n + d)) cs := by
  have hbrace : d.digitChar ≠ '\x7d' := by
    revert d
    decide
  rw [unquote, if_neg hbrace, hexValue?_digitChar d hd, Option.bind_some]

/-- Hexadecimal digits read back as the number they were written for. -/
theorem unquote_hex_toDigits (n : ℕ) (cs : List Char) :
    unquote (.hex 0) (Nat.toDigits 16 n ++ cs) = unquote (.hex n) cs := by
  induction n using Nat.strongRecOn generalizing cs with
  | _ n ih =>
      by_cases hn : n < 16
      · rw [Nat.toDigits_of_lt_base hn, List.singleton_append, unquote_hex_digitChar 0 hn]
        simp
      · have hrest : n / 16 < n := by omega
        have hdigit : n % 16 < 16 := Nat.mod_lt n (by omega)
        rw [Nat.toDigits_of_base_le (by omega) (by omega), List.append_assoc, ih _ hrest,
          List.singleton_append, unquote_hex_digitChar _ hdigit, Nat.div_add_mod]

/-- `code` is how a quoted value may write `c`. -/
def Encodes (code : List Char) (c : Char) : Prop :=
  ∀ cs, unquote .text (code ++ cs) = (unquote .text cs).map (c :: ·)

theorem encodes_plain {c : Char} (hquote : c ≠ '\"') (hslash : c ≠ '\\') : Encodes [c] c := by
  intro cs
  rw [List.singleton_append, unquote, if_neg hquote, if_neg hslash]

theorem encodes_quote : Encodes ['\\', '\"'] '\"' := by
  intro cs
  rfl

theorem encodes_backslash : Encodes ['\\', '\\'] '\\' := by
  intro cs
  rfl

theorem encodes_newline : Encodes ['\\', 'n'] '\n' := by
  intro cs
  rfl

theorem encodes_scalar (c : Char) :
    Encodes (['\\', 'u', '\x7b'] ++ Nat.toDigits 16 c.toNat ++ ['\x7d']) c := by
  intro cs
  have hread : unquote .text (['\\', 'u', '\x7b'] ++ Nat.toDigits 16 c.toNat ++ ['\x7d'] ++ cs) =
      unquote (.hex 0) (Nat.toDigits 16 c.toNat ++ '\x7d' :: cs) := by
    simp [unquote]
  have hvalid : c.toNat.isValidChar := c.valid
  rw [hread, unquote_hex_toDigits, unquote, if_pos rfl, if_pos hvalid, Char.ofNat_toNat]

/-- A text written character by character reads back, closing quote included. -/
theorem unquote_flatMap {code : Char → List Char} (h : ∀ c, Encodes (code c) c)
    (text : List Char) : unquote .text (text.flatMap code ++ ['\"']) = some text := by
  induction text with
  | nil => rfl
  | cons c text ih =>
      rw [List.flatMap_cons, List.append_assoc, h c, ih]
      rfl

/-- The value written behind a `=`. -/
def value : List Char → Option (List Char)
  | '\"' :: cs => unquote .text cs
  | cs => some cs

theorem value_bare {cs : List Char} (h : ∀ c ∈ cs, c ≠ '\"') : value cs = some cs := by
  cases cs with
  | nil => rfl
  | cons c cs =>
      rw [value]
      rintro cs' ⟨rfl, -⟩
      exact h '\"' List.mem_cons_self rfl

/-! ## Lines -/

/-- The key of a word, and the value behind its first `=` if it has one. -/
def entry (word : List Char) : Option (String × Option String) :=
  let key := String.ofList (word.takeWhile (· ≠ '='))
  match word.dropWhile (· ≠ '=') with
  | [] => some (key, none)
  | _ :: cs => (value cs).map fun text => (key, some (String.ofList text))

theorem entry_pair {key cs text : List Char} (hkey : '=' ∉ key) (hvalue : value cs = some text) :
    entry (key ++ '=' :: cs) = some (String.ofList key, some (String.ofList text)) := by
  have hne : ∀ c ∈ key, decide (c ≠ '=') = true := fun c hc =>
    decide_eq_true fun heq => hkey (heq ▸ hc)
  rw [entry, List.takeWhile_append_of_pos hne, List.dropWhile_append_of_pos hne]
  simp [hvalue]

/-- The keys and values of a line, in order, unless a word does not read. -/
def read (line : String) : Option (List (String × Option String)) :=
  (words .bare line.toList).mapM entry

end OtelBootstrap.Logfmt

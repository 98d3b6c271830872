import Mathlib.Data.List.Forall2

/-!
This module contains a reader of JSON texts and what it reads in texts that are written piece by piece:
scalars, and the arrays and objects of texts that are read. The reader knows no numbers but the natural
ones and no surrogate pairs, and it limits how deep a text may nest.
-/

namespace Json

inductive Value where
  | null
  | bool (b : Bool)
  | nat (n : Nat)
  | string (s : List Char)
  | array (items : List Value)
  | object (members : List (List Char × Value))

abbrev Reader (α : Type) := List Char → Option (α × List Char)

def isSpace (c : Char) : Bool := c = ' ' || c = '\t' || c = '\n' || c = '\r'

def skip (cs : List Char) : List Char := cs.dropWhile isSpace

def hexDigit (c : Char) : Option Nat :=
  if c.isDigit then
    some (c.toNat - '0'.toNat)
  else if 'a' ≤ c ∧ c ≤ 'f' then
    some (c.toNat - 'a'.toNat + 10)
  else if 'A' ≤ c ∧ c ≤ 'F' then
    some (c.toNat - 'A'.toNat + 10)
  else
    none

def codePoint : Reader Char
  | a :: b :: c :: d :: cs => do
    let a ← hexDigit a
    let b ← hexDigit b
    let c ← hexDigit c
    let d ← hexDigit d
    let n := 4096 * a + 256 * b + 16 * c + d
    if n.isValidChar then
      some (Char.ofNat n, cs)
    else
      none
  | _ => none

def shortEscape (c : Char) : Option Char :=
  match c with
  | '"' => some '"'
  | '\\' => some '\\'
  | '/' => some '/'
  | 'b' => some '\x08'
  | 'f' => some '\x0c'
  | 'n' => some '\n'
  | 'r' => some '\r'
  | 't' => some '\t'
  | _ => none

def escaped : Reader Char
  | [] => none
  | c :: cs => if c = 'u' then codePoint cs else (shortEscape c).map fun c => (c, cs)

def character : Reader Char
  | [] => none
  | c :: cs =>
    if c = '\\' then
      escaped cs
    else if c = '"' ∨ c.toNat < 32 then
      none
    else
      some (c, cs)

-- The characters up to the closing quotation mark.
def characters : Nat → Reader (List Char)
  | 0, _ => none
  | fuel + 1, cs =>
    if cs.head? = some '"' then
      some ([], cs.tail)
    else do
      let (c, cs) ← character cs
      let (s, cs) ← characters fuel cs
      some (c :: s, cs)

def string : Reader (List Char) := fun cs =>
  match skip cs with
  | [] => none
  | c :: cs => if c = '"' then characters cs.length cs else none

-- There are no superfluous zeros, and the number has no fraction and no exponent.
def natural : Reader Nat := fun cs =>
  let digits := cs.takeWhile Char.isDigit
  let rest := cs.dropWhile Char.isDigit
  if digits = [] ∨ (digits.head? = some '0' ∧ digits.tail ≠ [])
      ∨ rest.head? ∈ [some '.', some 'e', some 'E'] then
    none
  else
    some (Nat.ofDigitChars 10 digits 0, rest)

section Items

variable {α : Type} (item : Reader α) (close : Char)

-- The items up to the closing bracket, of which there is at least one.
def items : Nat → Reader (List α)
  | 0, _ => none
  | fuel + 1, cs => do
    let (x, cs) ← item cs
    match skip cs with
    | [] => none
    | c :: cs =>
      if c = close then
        some ([x], cs)
      else if c = ',' then do
        let (xs, cs) ← items fuel cs
        some (x :: xs, cs)
      else
        none

def bracketed : Reader (List α) := fun cs =>
  if (skip cs).head? = some close then
    some ([], (skip cs).tail)
  else
    items item close cs.length cs

def member : Reader (List Char × α) := fun cs => do
  let (name, cs) ← string cs
  match skip cs with
  | [] => none
  | c :: cs =>
    if c = ':' then do
      let (x, cs) ← item cs
      some ((name, x), cs)
    else
      none

def literal (text : List Char) (x : α) : Reader α := fun cs =>
  if text.isPrefixOf cs then
    some (x, cs.drop text.length)
  else
    none

end Items

-- The first number is how deep the text may nest.
def value : Nat → Reader Value
  | 0, _ => none
  | depth + 1, cs =>
    match skip cs with
    | [] => none
    | c :: cs =>
      if c = '"' then
        (characters cs.length cs).map fun (s, cs) => (.string s, cs)
      else if c = '[' then
        (bracketed (value depth) ']' cs).map fun (xs, cs) => (.array xs, cs)
      else if c = '{' then
        (bracketed (member (value depth)) '}' cs).map fun (xs, cs) => (.object xs, cs)
      else if c = 'n' then
        literal "ull".toList .null cs
      else if c = 't' then
        literal "rue".toList (.bool true) cs
      else if c = 'f' then
        literal "alse".toList (.bool false) cs
      else
        (natural (c :: cs)).map fun (n, cs) => (.nat n, cs)

def read (depth : Nat) (text : List Char) : Option Value := do
  let (x, rest) ← value depth text
  if skip rest = [] then
    some x
  else
    none

-- No number goes on here.
def Stops (rest : List Char) : Prop :=
  ∀ c, rest.head? = some c → c.isDigit = false ∧ c ≠ '.' ∧ c ≠ 'e' ∧ c ≠ 'E'

-- The text is what `item` reads `x` from, whatever comes behind it.
def Reads {α : Type} (item : Reader α) (text : List Char) (x : α) : Prop :=
  ∀ rest, Stops rest → item (text ++ rest) = some (x, rest)

-- A way to write a character so that it is read back.
def Escapes (escape : Char → List Char) : Prop :=
  ∀ c rest, character (escape c ++ rest) = some (c, rest)

theorem stops_nil : Stops [] := nofun

theorem skip_cons {c : Char} {cs : List Char} (h : isSpace c = false) : skip (c :: cs) = c :: cs := by
  rw [skip, List.dropWhile_cons, h]
  rfl

section Strings

variable {escape : Char → List Char} (hescape : Escapes escape)

include hescape

theorem escape_ne_nil (c : Char) : escape c ≠ [] := by
  intro h
  have hread := hescape c []
  rw [h] at hread
  contradiction

theorem head?_escape (c : Char) (rest : List Char) : (escape c ++ rest).head? ≠ some '"' := by
  intro h
  have hread := hescape c rest
  obtain ⟨cs, hcs⟩ := List.head?_eq_some_iff.mp h
  rw [hcs] at hread
  exact nomatch hread

theorem characters_escaped {s : List Char} {fuel : Nat} (hfuel : s.length < fuel) (rest : List Char)
    : characters fuel (s.flatMap escape ++ '"' :: rest) = some (s, rest) := by
  induction s generalizing fuel with
  | nil =>
    cases fuel with
    | zero => contradiction
    | succ fuel => rfl
  | cons c s ih =>
    cases fuel with
    | zero => contradiction
    | succ fuel =>
      rw [List.flatMap_cons, List.append_assoc, characters,
        if_neg (head?_escape hescape c _), hescape]
      change (characters fuel (s.flatMap escape ++ '"' :: rest)).bind _ = _
      rw [ih (Nat.lt_of_succ_lt_succ hfuel)]
      rfl

theorem length_le_flatMap (s : List Char) : s.length ≤ (s.flatMap escape).length := by
  induction s with
  | nil => exact Nat.le_refl _
  | cons c s ih =>
    have hpos := List.length_pos_iff.mpr (escape_ne_nil hescape c)
    rw [List.flatMap_cons, List.length_append, List.length_cons]
    omega

theorem characters_quoted (s rest : List Char)
    : characters (s.flatMap escape ++ '"' :: rest).length (s.flatMap escape ++ '"' :: rest)
        = some (s, rest) := by
  apply characters_escaped hescape
  have hle := length_le_flatMap hescape s
  rw [List.length_append, List.length_cons]
  omega

end Strings

section Numbers

theorem head?_toDigits {n : Nat} (h : (Nat.toDigits 10 n).head? = some '0')
    : (Nat.toDigits 10 n).tail = [] := by
  induction n using Nat.base_induction 10 (by decide) with
  | single m hm =>
    rw [Nat.toDigits_of_lt_base hm]
    rfl
  | digit m k hk hm ih =>
    rw [← Nat.toDigits_append_toDigits (by decide) hm hk,
      List.head?_append_of_ne_nil _ Nat.toDigits_ne_nil] at h
    -- The digits of `m` would be a zero, and `m` is not zero.
    obtain ⟨cs, hcs⟩ := List.head?_eq_some_iff.mp h
    have htail := ih h
    rw [hcs, List.tail_cons] at htail
    have hvalue := @Nat.ofDigitChars_ten_toDigits m
    rw [hcs, htail] at hvalue
    change 0 = m at hvalue
    omega

theorem natural_toDigits (n : Nat) {rest : List Char} (h : Stops rest)
    : natural (Nat.toDigits 10 n ++ rest) = some (n, rest) := by
  have hdigits (c : Char) (hc : c ∈ Nat.toDigits 10 n) : c.isDigit = true :=
    Nat.isDigit_of_mem_toDigits (by decide) (by decide) hc
  have hrest : rest.takeWhile Char.isDigit = [] ∧ rest.dropWhile Char.isDigit = rest := by
    cases rest with
    | nil => exact ⟨rfl, rfl⟩
    | cons c cs =>
      have hc := (h c rfl).1
      rw [List.takeWhile_cons, List.dropWhile_cons, hc]
      exact ⟨rfl, rfl⟩
  unfold natural
  rw [List.takeWhile_append_of_pos hdigits, List.dropWhile_append_of_pos hdigits, hrest.1, hrest.2,
    List.append_nil, if_neg]
  . rw [Nat.ofDigitChars_ten_toDigits]
  . rintro (hnil | hzero | hhead)
    . exact Nat.toDigits_ne_nil hnil
    . exact hzero.2 (head?_toDigits hzero.1)
    . cases hc : rest.head? with
      | none => simp [hc] at hhead
      | some c =>
        have hne := h c hc
        simp [hc, hne] at hhead

end Numbers

section Values

variable {depth : Nat} {escape : Char → List Char} (hescape : Escapes escape)

theorem reads_nat (n : Nat) : Reads (value (depth + 1)) (Nat.toDigits 10 n) (.nat n) := by
  intro rest hrest
  have hread := natural_toDigits n hrest
  cases hdigits : Nat.toDigits 10 n with
  | nil => exact absurd hdigits Nat.toDigits_ne_nil
  | cons c cs =>
    have hc : c.isDigit = true := by
      apply @Nat.isDigit_of_mem_toDigits 10 n c (by decide) (by decide)
      rw [hdigits]
      apply List.mem_cons_self
    have hne (c' : Char) (hc' : c'.isDigit = false) : c ≠ c' := by
      intro heq
      rw [heq, hc'] at hc
      contradiction
    have hspace : isSpace c = false := by
      simp [isSpace, hne]
    rw [hdigits] at hread
    rw [List.cons_append] at hread ⊢
    rw [value, skip_cons hspace]
    dsimp only
    rw [if_neg (hne _ rfl), if_neg (hne _ rfl), if_neg (hne _ rfl), if_neg (hne _ rfl),
      if_neg (hne _ rfl), if_neg (hne _ rfl), hread]
    rfl

theorem reads_bool (b : Bool) : Reads (value (depth + 1)) (toString b).toList (.bool b) := by
  intro rest _
  cases b with
  | false => rfl
  | true => rfl

include hescape in
theorem reads_string (s : List Char)
    : Reads (value (depth + 1)) ('"' :: (s.flatMap escape ++ ['"'])) (.string s) := by
  intro rest _
  have hread := characters_quoted hescape s rest
  rw [List.cons_append, List.append_assoc, List.singleton_append, value, skip_cons rfl]
  dsimp only
  rw [if_pos rfl, hread]
  rfl

include hescape in
theorem reads_member {α : Type} {item : Reader α} {text : List Char} {x : α} (h : Reads item text x)
    (name : List Char)
    : Reads (member item) ('"' :: (name.flatMap escape ++ '"' :: ':' :: text)) (name, x) := by
  intro rest hrest
  have hname := characters_quoted hescape name (':' :: (text ++ rest))
  have hstring : string ('"' :: (name.flatMap escape ++ '"' :: ':' :: (text ++ rest)))
      = some (name, ':' :: (text ++ rest)) := by
    rw [string, skip_cons rfl]
    dsimp only
    rw [if_pos rfl, hname]
  rw [List.cons_append, List.append_assoc, List.cons_append, List.cons_append, member, hstring]
  change (if ':' = ':' then (item (text ++ rest)).bind _ else none) = _
  rw [if_pos rfl, h rest hrest]
  rfl

end Values

-- The texts with commas between them.
def separated : List (List Char) → List Char
  | [] => []
  | text :: texts => text ++ texts.flatMap fun text => ',' :: text

theorem length_le_separated (texts : List (List Char))
    : texts.length ≤ (texts.flatMap fun text => ',' :: text).length := by
  induction texts with
  | nil => exact Nat.le_refl _
  | cons text texts ih =>
    rw [List.flatMap_cons, List.length_append, List.length_cons, List.length_cons]
    omega

theorem stops_comma (cs : List Char) : Stops (',' :: cs) := by
  rintro c ⟨⟩
  decide

section Items

variable {α : Type} {item : Reader α} {close : Char} (hstops : ∀ cs, Stops (close :: cs))
  (hspace : isSpace close = false) (hcomma : close ≠ ',')

include hstops hspace hcomma

-- The induction is on the texts behind the first.
theorem items_separated {text : List Char} {texts : List (List Char)} {x : α} {xs : List α}
    (hx : Reads item text x) (hxs : List.Forall₂ (Reads item) texts xs) {fuel : Nat}
    (hfuel : texts.length < fuel) (rest : List Char)
    : items item close fuel
          (text ++ ((texts.flatMap fun text => ',' :: text) ++ close :: rest))
        = some (x :: xs, rest) := by
  induction hxs generalizing text x fuel with
  | nil =>
    cases fuel with
    | zero => contradiction
    | succ fuel =>
      rw [List.flatMap_nil, List.nil_append, items, hx _ (hstops rest)]
      simp only [Option.bind_eq_bind, Option.bind_some]
      rw [skip_cons hspace]
      dsimp only
      rw [if_pos rfl]
  | @cons text' x' texts xs hx' _ ih =>
    cases fuel with
    | zero => contradiction
    | succ fuel =>
      have hrest := ih hx' (Nat.lt_of_succ_lt_succ hfuel)
      rw [List.flatMap_cons, List.cons_append, List.cons_append, List.append_assoc, items,
        hx _ (stops_comma _)]
      simp only [Option.bind_eq_bind, Option.bind_some]
      rw [skip_cons rfl]
      dsimp only
      rw [if_neg hcomma.symm, if_pos rfl, hrest]
      rfl

-- No item starts with the closing bracket.
theorem bracketed_separated (hclose : ∀ cs, (skip cs).head? = some close → item cs = none)
    {texts : List (List Char)} {xs : List α} (h : List.Forall₂ (Reads item) texts xs)
    (rest : List Char)
    : bracketed item close (separated texts ++ close :: rest) = some (xs, rest) := by
  cases h with
  | nil =>
    rw [separated, List.nil_append, bracketed, skip_cons hspace]
    exact if_pos rfl
  | @cons text x texts xs hx hxs =>
    have hlen : texts.length
        < (text ++ ((texts.flatMap fun text => ',' :: text) ++ close :: rest)).length := by
      have hle := length_le_separated texts
      rw [List.length_append, List.length_append, List.length_cons]
      omega
    have hitems := items_separated hstops hspace hcomma hx hxs hlen rest
    rw [separated, List.append_assoc, bracketed, if_neg, hitems]
    intro hhead
    have hnone := hclose _ hhead
    cases texts with
    | nil => exact nomatch hnone.symm.trans (hx _ (hstops rest))
    | cons text' texts =>
      rw [List.flatMap_cons, List.cons_append, List.cons_append] at hnone
      exact nomatch hnone.symm.trans (hx _ (stops_comma _))

end Items

section Brackets

variable {depth : Nat} {texts : List (List Char)}

theorem value_eq_none {cs : List Char} {c : Char} (h : (skip cs).head? = some c)
    (hc : c = ']' ∨ c = '}')
    : value depth cs = none := by
  obtain ⟨rest, hrest⟩ := List.head?_eq_some_iff.mp h
  cases depth with
  | zero => rfl
  | succ depth =>
    rw [value, hrest]
    rcases hc with rfl | rfl
    . rfl
    . rfl

theorem reads_array {xs : List Value} (h : List.Forall₂ (Reads (value depth)) texts xs)
    : Reads (value (depth + 1)) ('[' :: (separated texts ++ [']'])) (.array xs) := by
  intro rest _
  have hstops (cs : List Char) : Stops (']' :: cs) := by
    rintro c ⟨⟩
    decide
  have hread := bracketed_separated hstops rfl (by decide)
    (fun cs hhead => value_eq_none hhead (.inl rfl)) h rest
  rw [List.cons_append, List.append_assoc, List.singleton_append, value, skip_cons rfl]
  dsimp only
  rw [if_neg (by decide), if_pos rfl, hread]
  rfl

theorem reads_object {members : List (List Char × Value)}
    (h : List.Forall₂ (Reads (member (value depth))) texts members)
    : Reads (value (depth + 1)) ('{' :: (separated texts ++ ['}'])) (.object members) := by
  intro rest _
  have hstops (cs : List Char) : Stops ('}' :: cs) := by
    rintro c ⟨⟩
    decide
  have hclose (cs : List Char) (hhead : (skip cs).head? = some '}')
      : member (value depth) cs = none := by
    obtain ⟨rest, hrest⟩ := List.head?_eq_some_iff.mp hhead
    rw [member, string, hrest]
    rfl
  have hread := bracketed_separated hstops rfl (by decide) hclose h rest
  rw [List.cons_append, List.append_assoc, List.singleton_append, value, skip_cons rfl]
  dsimp only
  rw [if_neg (by decide), if_neg (by decide), if_pos rfl, hread]
  rfl

theorem read_of_reads {text : List Char} {x : Value} (h : Reads (value depth) text x)
    : read depth text = some x := by
  have hvalue := h [] stops_nil
  rw [List.append_nil] at hvalue
  rw [read, hvalue]
  rfl

end Brackets

end Json

import Mathlib.Data.List.Basic
import Mathlib.Data.List.TakeWhile
import Mathlib.Data.Nat.Digits.Defs
/-!
# RpcBroker.Lib.Perl

**The Perl a text generator is written in**: strings of bytes, patterns, `split`,
`join`, and assignment to an array.

A pattern is a sequence of character classes, each with how often it may occur.
The matcher is Perl's: each class takes as much as it can, and gives back a
character at a time while the rest of the pattern fails (`backOff`); the leftmost
position where the pattern matches is taken (`search`).

`matchHere_run` and `matchHere_one` match a class that cannot be taken too far;
`matchHere_backOff` is for one that has to give back. The other way round,
`search_sound` says what a match has found.
-/

namespace Perl

/-- A Perl string. -/
abbrev Text := List UInt8

/-- A string literal. -/
def text (s : String) : Text := s.toList.map fun c => c.toNat.toUInt8

/-- An integer, as it is interpolated into a string. -/
def number (n : Nat) : Text := (Nat.toDigits 10 n).map fun c => c.toNat.toUInt8

/-! ### Character classes -/

/-- `\w`. -/
def isWord (c : UInt8) : Bool :=
  (48 ≤ c && c ≤ 57) || (65 ≤ c && c ≤ 90) || c = 95 || (97 ≤ c && c ≤ 122)

/-- `\s`. -/
def isSpace (c : UInt8) : Bool := c = 32 || (9 ≤ c && c ≤ 13)

/-- What holds of all bytes of a text, as far as it can be computed. -/
theorem forall_of_all {p : UInt8 → Bool} {t : Text} (h : t.all p = true) : ∀ c ∈ t, p c = true :=
  List.all_eq_true.mp h

theorem forall_not_of_all {p : UInt8 → Bool} {t : Text} (h : (t.all fun c => !p c) = true) :
    ∀ c ∈ t, p c = false := by
  intro c hc
  simpa using List.all_eq_true.mp h c hc

/-- A word has no white space in it. -/
theorem isSpace_of_isWord {c : UInt8} (h : isWord c = true) : isSpace c = false := by
  simp only [isWord, isSpace, Bool.or_eq_true, Bool.and_eq_true, decide_eq_true_eq,
    UInt8.le_iff_toNat_le, ← UInt8.toNat_inj, Bool.or_eq_false_iff, Bool.and_eq_false_iff,
    decide_eq_false_iff_not, UInt8.reduceToNat] at h ⊢
  omega

/-! ### Patterns -/

/-- A class and how often it may occur; without a `max` any number of times. -/
structure Item where
  cls : UInt8 → Bool
  min : Nat
  max : Option Nat

/-- The class, once. -/
def Item.one (cls : UInt8 → Bool) : Item := ⟨cls, 1, some 1⟩

/-- `+`. -/
def Item.plus (cls : UInt8 → Bool) : Item := ⟨cls, 1, none⟩

/-- `*`. -/
def Item.star (cls : UInt8 → Bool) : Item := ⟨cls, 0, none⟩

/-- How many characters the class can take at most. -/
def Item.longest (item : Item) (s : Text) : Nat :=
  match item.max with
  | none => (s.takeWhile item.cls).length
  | some m => Nat.min m (s.takeWhile item.cls).length

/-- Try `n`, and one less each time, but not less than `lo`. -/
def backOff {β : Type} (lo : Nat) (f : Nat → Option β) : Nat → Option β
  | 0 => if lo = 0 then f 0 else none
  | n + 1 =>
      if n + 1 < lo then none
      else
        match f (n + 1) with
        | some r => some r
        | none => backOff lo f n

/-- The pattern at the start of the string: what each class took. -/
def matchHere : List Item → Text → Option (List Text)
  | [], _ => some []
  | item :: items, s =>
      backOff item.min (fun n => (matchHere items (s.drop n)).map (s.take n :: ·)) (item.longest s)

/-- The pattern at the leftmost position where it matches. -/
def search (items : List Item) : Text → Option (List Text)
  | [] => matchHere items []
  | c :: s =>
      match matchHere items (c :: s) with
      | some r => some r
      | none => search items s

/-- Nothing longer works, so what works is found. -/
theorem backOff_eq {β : Type} {lo n m : Nat} {f : Nat → Option β} {r : β} (hlo : lo ≤ m)
    (hm : m ≤ n) (hlonger : ∀ k, m < k → k ≤ n → f k = none) (hf : f m = some r) :
    backOff lo f n = some r := by
  induction n with
  | zero =>
      obtain rfl : m = 0 := Nat.le_zero.mp hm
      rw [backOff, if_pos (Nat.le_zero.mp hlo), hf]
  | succ n ih =>
      rw [backOff, if_neg (by omega)]
      rcases Nat.eq_or_lt_of_le hm with rfl | hlt
      · rw [hf]
      · rw [hlonger (n + 1) hlt (Nat.le_refl _)]
        exact ih (Nat.lt_succ_iff.mp hlt) fun k hk hkn => hlonger k hk (Nat.le_succ_of_le hkn)

/-- A class that gives back until the rest of the pattern matches. -/
theorem matchHere_backOff {item : Item} {items : List Item} {w rest : Text} {r : List Text}
    (hmin : item.min ≤ w.length) (hlongest : w.length ≤ item.longest (w ++ rest))
    (hlonger : ∀ k, w.length < k → k ≤ item.longest (w ++ rest) →
      matchHere items ((w ++ rest).drop k) = none)
    (hrest : matchHere items rest = some r) :
    matchHere (item :: items) (w ++ rest) = some (w :: r) := by
  rw [matchHere]
  refine backOff_eq hmin hlongest ?_ ?_
  · intro k hk hkn
    rw [hlonger k hk hkn]
    rfl
  · rw [List.drop_left, List.take_left, hrest]
    rfl

/-- A repeated class takes the whole run of its characters. -/
theorem longest_run {item : Item} {w rest : Text} (hmax : item.max = none)
    (hw : ∀ c ∈ w, item.cls c = true) (hrest : ∀ c ∈ rest.head?, item.cls c = false) :
    item.longest (w ++ rest) = w.length := by
  rw [Item.longest, hmax]
  show ((w ++ rest).takeWhile item.cls).length = w.length
  rw [List.takeWhile_append_of_pos hw]
  cases rest with
  | nil => simp
  | cons c rest => simp [hrest c (by simp)]

/-- A class followed by a character outside it. -/
theorem matchHere_run {item : Item} {items : List Item} {w rest : Text} {c : UInt8}
    {r : List Text} (hmax : item.max = none) (hmin : item.min ≤ w.length)
    (hw : ∀ c ∈ w, item.cls c = true) (hend : item.cls c = false)
    (hrest : matchHere items (c :: rest) = some r) :
    matchHere (item :: items) (w ++ c :: rest) = some (w :: r) := by
  have hlongest := longest_run hmax hw (by simpa using hend : ∀ d ∈ (c :: rest).head?, item.cls d = false)
  refine matchHere_backOff hmin hlongest.ge ?_ hrest
  intro k hk hkn
  omega

/-- A single character of the pattern. -/
theorem matchHere_one {cls : UInt8 → Bool} {items : List Item} {c : UInt8} {s : Text}
    {r : List Text} (hc : cls c = true) (hrest : matchHere items s = some r) :
    matchHere (.one cls :: items) (c :: s) = some ([c] :: r) := by
  refine matchHere_backOff (Nat.le_refl 1) (w := [c]) ?_ ?_ hrest
  · simp [Item.longest, Item.one, hc]
  · intro k hk hkn
    have hone : (Item.one cls).longest ([c] ++ s) ≤ 1 := Nat.min_le_left _ _
    simp only [List.length_singleton] at hk
    omega

/-- It does not match anything else, nor the end of the string. -/
theorem matchHere_one_none {cls : UInt8 → Bool} {items : List Item} {s : Text}
    (hs : ∀ c ∈ s.head?, cls c = false) : matchHere (.one cls :: items) s = none := by
  have hzero : (Item.one cls).longest s = 0 := by
    cases s with
    | nil => rfl
    | cons c s => simp [Item.longest, Item.one, hs c (by simp)]
  rw [matchHere, hzero]
  rfl

/-- A match at the start is the leftmost one. -/
theorem search_of_matchHere {items : List Item} {s : Text} {r : List Text}
    (h : matchHere items s = some r) : search items s = some r := by
  cases s with
  | nil => exact h
  | cons c s => rw [search, h]

/-- What is found worked, and nothing above `n` or below `lo` was tried. -/
theorem backOff_some {β : Type} {lo n : Nat} {f : Nat → Option β} {r : β}
    (h : backOff lo f n = some r) : ∃ m, lo ≤ m ∧ m ≤ n ∧ f m = some r := by
  induction n with
  | zero =>
      rw [backOff] at h
      split at h
      next hlo => exact ⟨0, Nat.le_of_eq hlo, Nat.le_refl 0, h⟩
      next => exact absurd h (by simp)
  | succ n ih =>
      rw [backOff] at h
      split at h
      next => exact absurd h (by simp)
      next hlo =>
          cases hf : f (n + 1) with
          | some r' =>
              rw [hf] at h
              exact ⟨n + 1, Nat.not_lt.mp hlo, Nat.le_refl _, hf.trans h⟩
          | none =>
              rw [hf] at h
              obtain ⟨m, hm, hle, hfm⟩ := ih h
              exact ⟨m, hm, Nat.le_succ_of_le hle, hfm⟩

/-- A class takes characters of its own, as often as it may. -/
structure Item.Takes (item : Item) (w : Text) : Prop where
  cls : ∀ c ∈ w, item.cls c = true
  min : item.min ≤ w.length
  max : ∀ m, item.max = some m → w.length ≤ m

/-- A class that occurs once takes one character. -/
theorem Item.Takes.one {cls : UInt8 → Bool} {w : Text} (h : (Item.one cls).Takes w) :
    ∃ c, w = [c] ∧ cls c = true := by
  obtain ⟨c, rfl⟩ := List.length_eq_one_iff.mp (Nat.le_antisymm (h.max 1 rfl) h.min)
  exact ⟨c, rfl, h.cls c (List.mem_singleton_self c)⟩

/-- As many characters as a class can take are all of it. -/
theorem takes_of_le_longest {item : Item} {s : Text} {n : Nat} (hmin : item.min ≤ n)
    (hn : n ≤ item.longest s) : item.Takes (s.take n) ∧ n ≤ s.length := by
  have hprefix : s.takeWhile item.cls <+: s := List.takeWhile_prefix _
  have hrun : n ≤ (s.takeWhile item.cls).length := by
    refine Nat.le_trans hn ?_
    rw [Item.longest]
    split
    · exact Nat.le_refl _
    · exact Nat.min_le_right _ _
  have hlen : n ≤ s.length := Nat.le_trans hrun hprefix.length_le
  have htake : s.take n = (s.takeWhile item.cls).take n := by
    obtain ⟨rest, hrest⟩ := hprefix
    conv_lhs => rw [← hrest]
    rw [List.take_append_of_le_length hrun]
  refine ⟨⟨?_, ?_, ?_⟩, hlen⟩
  · intro c hc
    rw [htake] at hc
    exact List.mem_takeWhile_imp (List.mem_of_mem_take hc)
  · rwa [List.length_take_of_le hlen]
  · intro m hm
    rw [List.length_take_of_le hlen]
    rw [Item.longest, hm] at hn
    exact Nat.le_trans hn (Nat.min_le_left _ _)

/-- **What a pattern took is there**, one text for each class, from the start of the
string on. -/
theorem matchHere_sound {items : List Item} {s : Text} {ws : List Text}
    (h : matchHere items s = some ws) : List.Forall₂ Item.Takes items ws ∧ ws.flatten <+: s := by
  induction items generalizing s ws with
  | nil =>
      obtain rfl : [] = ws := Option.some.inj h
      exact ⟨.nil, List.nil_prefix⟩
  | cons item items ih =>
      rw [matchHere] at h
      obtain ⟨n, hmin, hn, hmatch⟩ := backOff_some h
      obtain ⟨ws', hrest, rfl⟩ := Option.map_eq_some_iff.mp hmatch
      obtain ⟨htakes, hprefix⟩ := ih hrest
      refine ⟨.cons (takes_of_le_longest hmin hn).1 htakes, ?_⟩
      rw [List.flatten_cons]
      conv_rhs => rw [← List.take_append_drop n s]
      exact (List.prefix_append_right_inj _).mpr hprefix

/-- What is found anywhere in the string is in it. -/
theorem search_sound {items : List Item} {s : Text} {ws : List Text}
    (h : search items s = some ws) : List.Forall₂ Item.Takes items ws ∧ ws.flatten <:+: s := by
  induction s with
  | nil =>
      obtain ⟨htakes, hprefix⟩ := matchHere_sound h
      exact ⟨htakes, hprefix.isInfix⟩
  | cons c s ih =>
      rw [search] at h
      split at h
      next r hr =>
          obtain rfl := Option.some.inj h
          obtain ⟨htakes, hprefix⟩ := matchHere_sound hr
          exact ⟨htakes, hprefix.isInfix⟩
      next =>
          obtain ⟨htakes, hinfix⟩ := ih h
          exact ⟨htakes, hinfix.trans (List.suffix_cons c s).isInfix⟩

/-! ### Lines -/

/-- `<HANDLE>`, read to the end: the lines of a file, each with its newline. -/
def readLines : Text → List Text
  | [] => []
  | c :: s =>
      if c = 10 then [c] :: readLines s
      else
        match readLines s with
        | [] => [[c]]
        | line :: lines => (c :: line) :: lines

/-- A line with its newline, and what comes behind it. -/
theorem readLines_line {line rest : Text} (h : 10 ∉ line) :
    readLines (line ++ 10 :: rest) = (line ++ [10]) :: readLines rest := by
  induction line with
  | nil => rw [List.nil_append, readLines, if_pos rfl, List.nil_append]
  | cons c line ih =>
      obtain ⟨hc, hline⟩ := not_or.mp fun h' => h (List.mem_cons.mpr h')
      rw [List.cons_append, readLines, if_neg fun h' => hc h'.symm, ih hline, List.cons_append]

/-- A last line without a newline. -/
theorem readLines_last {line : Text} (hne : line ≠ []) (h : 10 ∉ line) :
    readLines line = [line] := by
  induction line with
  | nil => exact absurd rfl hne
  | cons c line ih =>
      obtain ⟨hc, hline⟩ := not_or.mp fun h' => h (List.mem_cons.mpr h')
      rw [readLines, if_neg fun h' => hc h'.symm]
      cases line with
      | nil => rfl
      | cons d line => rw [ih (by simp) hline]

/-! ### Lists -/

/-- `split(' ', s)`: the runs without white space. -/
def split (s : Text) : List Text := (s.splitOnP isSpace).filter (· ≠ [])

/-- `join`. -/
def join (sep : Text) (xs : List Text) : Text := sep.intercalate xs

/-- `$xs[$i] = $v`, which extends the array as far as needed. -/
def assign (xs : List Text) (i : Nat) (v : Text) : List Text :=
  if i < xs.length then xs.set i v else xs ++ List.replicate (i - xs.length) [] ++ [v]

@[simp] theorem split_nil : split [] = [] := rfl

/-- A word and a space. -/
theorem split_word_cons {w : Text} {sep : UInt8} {s : Text} (hne : w ≠ [])
    (hw : ∀ c ∈ w, isSpace c = false) (hsep : isSpace sep = true) :
    split (w ++ sep :: s) = w :: split s := by
  rw [split, List.splitOnP_append_cons_of_forall_mem hw sep hsep, List.filter_cons_of_pos (by simpa)]
  rfl

/-- A last word. -/
theorem split_word {w : Text} (hne : w ≠ []) (hw : ∀ c ∈ w, isSpace c = false) :
    split w = [w] := by
  rw [split, List.splitOnP_eq_singleton hw, List.filter_cons_of_pos (by simpa)]
  rfl

@[simp] theorem join_nil (sep : Text) : join sep [] = [] := rfl

@[simp] theorem join_singleton (sep x : Text) : join sep [x] = x := List.intercalate_singleton

@[simp] theorem join_cons_cons (sep x y : Text) (xs : List Text) :
    join sep (x :: y :: xs) = x ++ sep ++ join sep (y :: xs) := List.intercalate_cons_cons

/-- A joined text is made of the separator and the elements. -/
theorem forall_mem_join {P : UInt8 → Prop} {sep : Text} {xs : List Text} (hsep : ∀ c ∈ sep, P c)
    (hxs : ∀ x ∈ xs, ∀ c ∈ x, P c) : ∀ c ∈ join sep xs, P c := by
  induction xs with
  | nil => simp
  | cons x xs ih =>
      obtain ⟨hx, hrest⟩ := List.forall_mem_cons.mp hxs
      cases xs with
      | nil => simpa using hx
      | cons y ys =>
          intro c hc
          rw [join_cons_cons, List.mem_append, List.mem_append] at hc
          exact hc.elim (fun hc => hc.elim (hx c) (hsep c)) (ih hrest c)

/-- A separator in front as well. -/
theorem append_join {sep : Text} {xs : List Text} (h : xs ≠ []) :
    sep ++ join sep xs = xs.flatMap (sep ++ ·) := by
  induction xs with
  | nil => exact absurd rfl h
  | cons x xs ih =>
      cases xs with
      | nil => simp
      | cons y ys =>
          rw [join_cons_cons, List.flatMap_cons, ← ih (by simp)]
          simp only [List.append_assoc]

/-- Assignment behind the elements that count, where at most one other is. -/
theorem assign_append {xs more : List Text} (hmore : more.length ≤ 1) (v : Text) :
    assign (xs ++ more) xs.length v = xs ++ [v] := by
  rw [assign]
  cases more with
  | nil => simp
  | cons m more =>
      obtain rfl : more = [] := by simpa using hmore
      simp

/-- Assignment behind the last element. -/
theorem assign_length (xs : List Text) (v : Text) : assign xs xs.length v = xs ++ [v] := by
  simp [assign]

end Perl

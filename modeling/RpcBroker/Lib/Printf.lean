import RpcBroker.Lib.Overwrite
/-!
# RpcBroker.Lib.Printf

**Texts in buffers, and texts printed as formats.** `Block.write` stores a text and its
terminator, as `strcpy` and `sprintf` do whatever room there is; `Block.strcat` finds the
end first. A block then holds the text exactly if there was room (`holds_write_iff`,
`holds_strcat_iff`).

`printed` is what `printf(text)` prints: without further arguments the only conversion
with a meaning is the doubled percent sign. So the output is defined exactly for the texts
in which every percent sign has been doubled (`printed_eq_some_iff`), and a text put
together from pieces that do not start with the sign is one if each piece is
(`exists_escape_append`).
-/

namespace CMemory.Block

open CLib

/-- A text and its terminator, from the start of the block on. -/
def write (b : Block) (text : List UInt8) : Block := b.put (text.map some ++ [some 0])

/-- An array with a literal for its initialiser. -/
def literal (n : Nat) (text : List UInt8) : Block := (zeroed n).write text

/-- `strcat(p, text)`, which reads the string that is there; what it writes starts at the
terminator, so the string itself stays. -/
def strcat (b : Block) (text : List UInt8) : Block :=
  match b.string? with
  | some held => b.write (held.chars ++ text)
  | none => { b with stray := true }

variable {b : Block} {text more : List UInt8} {n : Nat}

@[simp] theorem room_write : (b.write text).room = b.room := room_put

@[simp] theorem stray_write :
    (b.write text).stray = false ↔ b.stray = false ∧ text.length < b.room := by
  rw [write, stray_put, List.length_append, List.length_map, List.length_singleton,
    Nat.succ_le_iff]

theorem stray_write_of_stray (h : b.stray = true) : (b.write text).stray = true := by
  rw [write, put, h, Bool.true_or]

/-- A text that fits is there. -/
theorem string?_write (h : text.length < b.room) :
    (b.write text).string? = some (.ofBytes text) := by
  have hfits : (text.map some ++ [some 0] : List Cell).length ≤ b.room := by
    rwa [List.length_append, List.length_map]
  rw [string?, write, cells_put hfits, List.append_assoc, List.singleton_append,
    chars?_terminated, Option.map_some]
  exact congrArg some (CString.ext List.takeWhile_idem)

/-- **A block holds the text it was given room for.** -/
theorem holds_write_iff :
    (b.write text).Holds text ↔ b.stray = false ∧ text.length < b.room := by
  constructor
  · exact fun h => stray_write.mp h.1
  · exact fun h => ⟨stray_write.mpr h, string?_write h.2⟩

@[simp] theorem room_strcat : (b.strcat text).room = b.room := by
  rw [strcat]
  split
  · exact room_write
  · rfl

theorem stray_strcat (h : b.stray = true) : (b.strcat text).stray = true := by
  rw [strcat]
  split
  · exact stray_write_of_stray h
  · rfl

/-- A text behind one that was written without a NUL in it. -/
theorem holds_strcat_iff (h : 0 ∉ text) :
    ((b.write text).strcat more).Holds (text ++ more) ↔
      b.stray = false ∧ (text ++ more).length < b.room := by
  have htext : (CString.ofBytes text).chars = text :=
    List.takeWhile_eq_self_iff.mpr fun c hc => bne_iff_ne.mpr fun h0 => h (h0 ▸ hc)
  by_cases hfits : text.length < b.room
  · rw [strcat, string?_write hfits]
    show ((b.write text).write ((CString.ofBytes text).chars ++ more)).Holds (text ++ more) ↔ _
    rw [htext, holds_write_iff, stray_write, room_write, and_assoc, and_congr_right_iff]
    exact fun _ => and_iff_right hfits
  · have hstray : ((b.write text).strcat more).stray = true :=
      stray_strcat (by rw [write, put]; simp [List.length_map]; omega)
    refine iff_of_false (not_holds_of_stray hstray) ?_
    rw [List.length_append]
    omega

end CMemory.Block

namespace CLib

/-! ### Formats -/

/-- What `printf(text)` prints, where that is defined. -/
def printed : List UInt8 → Option (List UInt8)
  | [] => some []
  | [c] => if c = 37 then none else some [c]
  | c :: d :: rest =>
      if c ≠ 37 then (printed (d :: rest)).map (c :: ·)
      else if d = 37 then (printed rest).map (37 :: ·)
      else none

/-- Every percent sign doubled. -/
def escape (text : List UInt8) : List UInt8 :=
  text.flatMap fun c => if c = 37 then [37, 37] else [c]

theorem escape_cons (c : UInt8) (text : List UInt8) :
    escape (c :: text) = (if c = 37 then [37, 37] else [c]) ++ escape text := List.flatMap_cons

theorem printed_cons {c : UInt8} {text : List UInt8} (h : c ≠ 37) :
    printed (c :: text) = (printed text).map (c :: ·) := by
  cases text with
  | nil => simp [printed, h]
  | cons d text => rw [printed, if_pos h]

theorem printed_doubled (text : List UInt8) :
    printed (37 :: 37 :: text) = (printed text).map (37 :: ·) := by
  rw [printed, if_neg (by decide), if_pos rfl]

theorem printed_escape (text : List UInt8) : printed (escape text) = some text := by
  induction text with
  | nil => rfl
  | cons c text ih =>
      rw [escape_cons]
      by_cases hc : c = 37
      · rw [if_pos hc, hc]
        show printed (37 :: 37 :: escape text) = some (37 :: text)
        rw [printed_doubled, ih, Option.map_some]
      · rw [if_neg hc, List.singleton_append, printed_cons hc, ih, Option.map_some]

/-- **What is printed is the text with the doubling undone.** -/
theorem printed_eq_some_iff {text out : List UInt8} :
    printed text = some out ↔ text = escape out := by
  constructor
  · intro h
    induction text using printed.induct generalizing out with
    | case1 =>
        obtain rfl := Option.some.inj h
        rfl
    | case2 => exact absurd h (by simp [printed])
    | case3 c hc =>
        rw [printed, if_neg hc] at h
        rw [← Option.some.inj h, escape_cons, if_neg hc]
        rfl
    | case4 c d rest hc ih =>
        rw [printed, if_pos hc] at h
        obtain ⟨out, hout, rfl⟩ := Option.map_eq_some_iff.mp h
        rw [escape_cons, if_neg hc, ih hout, List.singleton_append]
    | case5 c rest hc ih =>
        obtain rfl := not_not.mp hc
        rw [printed_doubled] at h
        obtain ⟨out, hout, rfl⟩ := Option.map_eq_some_iff.mp h
        rw [escape_cons, if_pos rfl, ih hout]
        rfl
    | case6 c d rest hc hd =>
        rw [printed, if_neg hc, if_neg hd] at h
        exact absurd h (by simp)
  · intro heq
    obtain rfl := heq
    exact printed_escape out

theorem printed_isSome_iff {text : List UInt8} :
    (printed text).isSome ↔ ∃ out, text = escape out := by
  rw [Option.isSome_iff_exists]
  exact exists_congr fun _ => printed_eq_some_iff

/-- **A text in pieces**, the second of which does not start with the sign. -/
theorem printed_append_isSome_iff {text more : List UInt8} (h : more.head? ≠ some 37) :
    (printed (text ++ more)).isSome ↔ (printed text).isSome ∧ (printed more).isSome := by
  induction text using printed.induct with
  | case1 => simp [printed]
  | case2 =>
      -- The sign would need another behind it.
      cases more with
      | nil => simp [printed]
      | cons d more =>
          have hd : d ≠ 37 := fun hd => h (congrArg some hd)
          simp [printed, hd]
  | case3 c hc =>
      rw [List.singleton_append, printed_cons hc, Option.isSome_map, printed, if_neg hc]
      exact (and_iff_right rfl).symm
  | case4 c d rest hc ih => simpa [printed_cons hc] using ih
  | case5 c rest hc ih =>
      obtain rfl := not_not.mp hc
      rw [List.cons_append, List.cons_append, printed_doubled, printed_doubled, Option.isSome_map,
        Option.isSome_map]
      exact ih
  | case6 c d rest hc hd => simp [printed, not_not.mp hc, hd]

/-- A first piece without the sign. -/
theorem printed_append_of_notMem {text more : List UInt8} (h : 37 ∉ text) :
    (printed (text ++ more)).isSome ↔ (printed more).isSome := by
  induction text with
  | nil => rfl
  | cons c text ih =>
      rw [List.mem_cons, not_or] at h
      rw [List.cons_append, printed_cons (Ne.symm h.1), Option.isSome_map]
      exact ih h.2

end CLib

import Mathlib.Data.List.Induction
import RpcBroker.Lib.Memory
/-!
# RpcBroker.Lib.Overwrite

**Strings written over each other.** A character array that starts out as NULs keeps a
setting; `strncpy(p, s, strlen(s))` writes the characters of a new value and no
terminator. So the end of a longer value stays behind a shorter one (`layered`), and the
array reads back as the value set last exactly if none before it was longer and it leaves
room for a terminator (`holds_overwriteAll_iff`). `strncpy(p, s, n)` for an array of `n`
characters forgets what was there (`holds_strncpy_iff`).
-/

namespace CMemory.Block

open CLib

/-- An array of NULs. -/
def zeroed (n : Nat) : Block := ⟨List.replicate n (some 0), false⟩

/-- A string as the source of a copy. -/
def sourceOf (s : CString) : List Cell := s.chars.map some ++ [some 0]

/-- `strncpy(p, s, strlen(s))`. -/
def overwrite (b : Block) (s : CString) : Block := b.strncpy (sourceOf s) s.strlen

/-- One value after the other. -/
def overwriteAll (b : Block) (ss : List CString) : Block := ss.foldl overwrite b

/-- What is left when values are written over each other. -/
def layered (ss : List CString) : List UInt8 :=
  ss.foldl (fun bytes s => s.chars ++ bytes.drop s.strlen) []

/-- The block holds these characters and NULs behind them. -/
structure Filled (b : Block) (bytes : List UInt8) : Prop where
  stray : b.stray = false
  nulFree : 0 ∉ bytes
  fits : bytes.length ≤ b.room
  cells : b.cells = bytes.map some ++ List.replicate (b.room - bytes.length) (some 0)

variable {b : Block} {s : CString} {ss : List CString} {bytes : List UInt8} {n : Nat}

@[simp] theorem room_zeroed : (zeroed n).room = n := List.length_replicate

theorem filled_zeroed (n : Nat) : (zeroed n).Filled [] :=
  ⟨rfl, by simp, Nat.zero_le _, by simp [zeroed, room]⟩

theorem chars_ne_zero {c : Cell} (h : c ∈ s.chars.map some) : c ≠ some 0 := by
  obtain ⟨byte, hbyte, rfl⟩ := List.mem_map.mp h
  exact fun h0 => s.nulFree (Option.some.inj h0 ▸ hbyte)

/-- What a copy of at most `n` characters writes. -/
theorem padded_sourceOf (s : CString) (n : Nat) :
    padded (sourceOf s) n =
      (s.chars.take n).map some ++ List.replicate (n - (s.chars.take n).length) (some 0) := by
  have hwhile : ((sourceOf s).take n).takeWhile (fun c : Cell => decide (c ≠ some 0)) =
      (s.chars.take n).map some := by
    by_cases hn : n ≤ s.chars.length
    · rw [sourceOf, List.take_append_of_le_length (by rwa [List.length_map]), ← List.map_take]
      refine List.takeWhile_eq_self_iff.mpr fun c hc => decide_eq_true (chars_ne_zero (s := s) ?_)
      exact List.map_subset _ (List.take_subset ..) hc
    · have hlt := Nat.lt_of_not_le hn
      have hlength : (sourceOf s).length ≤ n := by
        rw [sourceOf, List.length_append, List.length_map]
        exact hlt
      rw [List.take_of_length_le hlength, sourceOf,
        List.takeWhile_append_of_pos fun c hc => decide_eq_true (chars_ne_zero hc),
        List.take_of_length_le hlt.le]
      simp
  rw [padded, hwhile, List.length_map]

theorem room_overwrite : (b.overwrite s).room = b.room := room_strncpy

theorem stray_overwrite :
    (b.overwrite s).stray = false ↔ b.stray = false ∧ s.strlen ≤ b.room := stray_strncpy

theorem room_overwriteAll : (b.overwriteAll ss).room = b.room := by
  induction ss generalizing b with
  | nil => rfl
  | cons s ss ih => exact (ih (b := b.overwrite s)).trans room_overwrite

theorem stray_overwriteAll :
    (b.overwriteAll ss).stray = false ↔
      b.stray = false ∧ ∀ s ∈ ss, s.strlen ≤ b.room := by
  induction ss generalizing b with
  | nil => simp [overwriteAll]
  | cons s ss ih =>
      rw [overwriteAll, List.foldl_cons, ← overwriteAll, ih, stray_overwrite, room_overwrite,
        List.forall_mem_cons, and_assoc]

/-- **One value written over another.** -/
theorem Filled.overwrite (h : b.Filled bytes) (hs : s.strlen ≤ b.room) :
    (b.overwrite s).Filled (s.chars ++ bytes.drop s.strlen) where
  stray := stray_overwrite.mpr ⟨h.stray, hs⟩
  nulFree hmem := by
    rcases List.mem_append.mp hmem with hmem | hmem
    · exact s.nulFree hmem
    · exact h.nulFree (List.mem_of_mem_drop hmem)
  fits := by
    have hfits := h.fits
    rw [room_overwrite, List.length_append, List.length_drop]
    rw [CString.strlen] at hs ⊢
    omega
  cells := by
    have hput : (b.overwrite s).cells = s.chars.map some ++ b.cells.drop s.strlen := by
      rw [Block.overwrite, strncpy, cells_put (by rwa [length_padded]), length_padded,
        padded_sourceOf, CString.strlen, List.take_length, Nat.sub_self, List.replicate_zero,
        List.append_nil]
    have hcount : b.room - bytes.length - (s.strlen - bytes.length) =
        b.room - (s.chars ++ bytes.drop s.strlen).length := by
      rw [List.length_append, List.length_drop, CString.strlen]
      omega
    rw [hput, h.cells, List.drop_append, List.drop_replicate, List.length_map, hcount,
      room_overwrite, List.map_append, List.map_drop, List.append_assoc]

/-- Values that fit, written over each other. -/
theorem Filled.overwriteAll (h : b.Filled bytes) (hss : ∀ s ∈ ss, s.strlen ≤ b.room) :
    (b.overwriteAll ss).Filled
      (ss.foldl (fun bytes s => s.chars ++ bytes.drop s.strlen) bytes) := by
  induction ss generalizing b bytes with
  | nil => exact h
  | cons s ss ih =>
      obtain ⟨hs, hrest⟩ := List.forall_mem_cons.mp hss
      exact ih (h.overwrite hs) (by rwa [room_overwrite])

/-- Characters without a NUL are no string. -/
theorem chars?_unterminated (hbytes : 0 ∉ bytes) : chars? (bytes.map some) = none := by
  induction bytes with
  | nil => rfl
  | cons c bytes ih =>
      obtain ⟨hc, hrest⟩ := not_or.mp (List.mem_cons.not.mp hbytes)
      rw [List.map_cons, chars?, if_neg (Ne.symm hc), ih hrest]
      rfl

/-- A filled block reads back if there is room for a terminator. -/
theorem Filled.string? (h : b.Filled bytes) :
    b.string? = if bytes.length < b.room then some (.ofBytes bytes) else none := by
  have hfits := h.fits
  split
  next hlt =>
      have hcells : b.cells = bytes.map some ++
          some 0 :: List.replicate (b.room - bytes.length - 1) (some 0) := by
        rw [h.cells, ← List.replicate_succ]
        congr 2
        omega
      rw [Block.string?, hcells, chars?_terminated]
      exact congrArg some (CString.ext List.takeWhile_idem)
  next hge =>
      have hcells : b.cells = bytes.map some := by
        rw [h.cells, Nat.sub_eq_zero_of_le (Nat.not_lt.mp hge), List.replicate_zero,
          List.append_nil]
      rw [Block.string?, hcells, chars?_unterminated h.nulFree]
      rfl

/-- What a filled block has to be filled with to hold a string. -/
theorem Filled.holds_iff (h : b.Filled bytes) (s : CString) :
    b.Holds s.chars ↔ bytes = s.chars ∧ s.strlen < b.room := by
  rw [Holds, h.string?, CString.ofBytes_chars]
  constructor
  · intro hholds
    have hread := hholds.2
    split at hread
    next hlt =>
        have hbytes : bytes = s.chars := by
          rw [← Option.some.inj hread, CString.chars_ofBytes h.nulFree]
        exact ⟨hbytes, by rwa [CString.strlen, ← hbytes]⟩
    next => exact absurd hread (by simp)
  · intro hboth
    obtain ⟨hbytes, hlt⟩ := hboth
    rw [CString.strlen] at hlt
    rw [hbytes, if_pos hlt, CString.ofBytes_chars]
    exact ⟨h.stray, rfl⟩

/-! ### The last value -/

/-- The value set last, nothing at first. -/
def last (ss : List CString) : CString := ss.getLastD .empty

/-- The last of these values can be read back: none was longer, and there is room for a
terminator. -/
def Kept (n : Nat) (ss : List CString) : Prop :=
  (last ss).strlen < n ∧ ∀ s ∈ ss, s.strlen ≤ (last ss).strlen

@[simp] theorem last_singleton (s : CString) : last [s] = s := rfl

/-- A value set once needs the room only. -/
@[simp] theorem kept_singleton : Kept n [s] ↔ s.strlen < n := by
  simp [Kept]

theorem layered_concat (ss : List CString) (s : CString) :
    layered (ss ++ [s]) = s.chars ++ (layered ss).drop s.strlen := by
  rw [layered, List.foldl_append]
  rfl

theorem last_concat (ss : List CString) (s : CString) : last (ss ++ [s]) = s := by
  rw [last, List.getLastD_concat]

/-- Layers are as long as the longest value. -/
theorem length_layered_le {k : Nat} :
    (layered ss).length ≤ k ↔ ∀ s ∈ ss, s.strlen ≤ k := by
  induction ss using List.reverseRecOn with
  | nil => simp [layered]
  | append_singleton ss s ih =>
      rw [layered_concat, List.length_append, List.length_drop, List.forall_mem_append,
        List.forall_mem_singleton, ← ih, CString.strlen]
      omega

/-- The last value is all there is if none before it was longer. -/
theorem layered_eq_iff : layered ss = (last ss).chars ↔ ∀ s ∈ ss, s.strlen ≤ (last ss).strlen := by
  rw [← length_layered_le]
  refine ⟨fun h => (congrArg List.length h).le, ?_⟩
  intro hle
  cases ss using List.reverseRecOn with
  | nil => rfl
  | append_singleton ss s =>
      rw [layered_concat, last_concat] at hle ⊢
      have hlen : s.chars.length = s.strlen := rfl
      rw [List.length_append] at hle
      rw [List.eq_nil_of_length_eq_zero (by omega : ((layered ss).drop s.strlen).length = 0),
        List.append_nil]

/-- **What an array keeps of the values set one after the other.** -/
theorem holds_overwriteAll_iff (n : Nat) (ss : List CString) :
    ((zeroed n).overwriteAll ss).Holds (last ss).chars ↔ Kept n ss := by
  by_cases hfit : ∀ s ∈ ss, s.strlen ≤ n
  · have hfilled : ((zeroed n).overwriteAll ss).Filled (layered ss) :=
      (filled_zeroed n).overwriteAll (by rwa [room_zeroed])
    rw [hfilled.holds_iff, layered_eq_iff, room_overwriteAll, room_zeroed, and_comm, Kept]
  · constructor
    · intro h
      have hstray := (stray_overwriteAll.mp h.1).2
      rw [room_zeroed] at hstray
      exact absurd hstray hfit
    · intro h
      exact absurd (fun s hs => (h.2 s hs).trans h.1.le) hfit

example : ((zeroed 20).overwriteAll [.lit "8181", .lit "80"]).string? = some (.lit "8081") := by
  decide

/-- A copy padded to the whole array forgets what was there. -/
theorem holds_strncpy_iff :
    (b.strncpy (sourceOf s) b.room).Holds s.chars ↔ b.stray = false ∧ s.strlen < b.room := by
  have hcells : (b.strncpy (sourceOf s) b.room).cells = (s.chars.take b.room).map some ++
      List.replicate (b.room - (s.chars.take b.room).length) (some 0) := by
    rw [strncpy, cells_put (by rw [length_padded]), length_padded, padded_sourceOf, room,
      List.drop_length, List.append_nil]
  have hfilled : b.stray = false →
      (b.strncpy (sourceOf s) b.room).Filled (s.chars.take b.room) := fun hstray =>
    ⟨stray_strncpy.mpr ⟨hstray, Nat.le_refl _⟩, fun hmem => s.nulFree (List.mem_of_mem_take hmem),
      by rw [room_strncpy]; exact List.length_take_le .., by rw [room_strncpy]; exact hcells⟩
  constructor
  · intro h
    have hstray := (stray_strncpy.mp h.1).1
    have hlt := ((hfilled hstray).holds_iff s |>.mp h).2
    rw [room_strncpy] at hlt
    exact ⟨hstray, hlt⟩
  · intro h
    obtain ⟨hstray, hlt⟩ := h
    refine ((hfilled hstray).holds_iff s).mpr ⟨List.take_of_length_le hlt.le, ?_⟩
    rwa [room_strncpy]

/-! ### Several arrays -/

/-- The values that were set in an array. -/
def valuesOf {ω φ : Type} [DecidableEq φ] (field? : ω → Option φ) (f : φ)
    (args : List (ω × CString)) : List CString :=
  args.filterMap fun arg => if field? arg.1 = some f then some arg.2 else none

/-- **Handlers that overwrite one array each.** An array of the state is what was set in it,
one value over the other, whatever was set elsewhere in between. -/
theorem array_foldl {σ ω φ : Type} [DecidableEq φ] {array : σ → φ → Block}
    {field? : ω → Option φ} {handler : ω → σ → CString → σ}
    (hhandler : ∀ o s arg f, array (handler o s arg) f =
      if field? o = some f then (array s f).overwrite arg else array s f)
    (s : σ) (args : List (ω × CString)) (f : φ) :
    array (args.foldl (fun s arg => handler arg.1 s arg.2) s) f =
      (array s f).overwriteAll (valuesOf field? f args) := by
  induction args generalizing s with
  | nil => rfl
  | cons arg args ih =>
      rw [List.foldl_cons, ih, hhandler]
      by_cases hfield : field? arg.1 = some f
      · simp only [valuesOf, List.filterMap_cons, if_pos hfield]
        rfl
      · simp only [valuesOf, List.filterMap_cons, if_neg hfield]

end CMemory.Block

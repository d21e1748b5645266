import Mathlib.Data.List.Forall2
import RpcBroker.Lib.CValue
/-!
# RpcBroker.Lib.Msgpack

**MessagePack at the level of packer calls.** A program that writes
MessagePack with the C packer makes one call per header, body or number; the
calls are the `Token`s here. A map or array header announces how many objects
follow and a string header how many bytes, before any of them is written, so a
token list need not be a sequence of complete objects: `parse` says when it is,
and which.

`parse` is a pushdown machine. A `Frame` is an array or a map that still waits
for elements, `complete` hands a finished object to the frames, and `run` goes
through the tokens once. The rules `Completes.int`, `Completes.str`,
`Completes.array` and `Completes.entry` are all an encoder's proof needs: each
says that some tokens write one object wherever they stand.

The reader is a parameter, `Codec`: a buffer type with a `pack` and an
`unpack`. What a program relies on is its one law that unpacking a buffer
packed from complete objects gives these objects and then the end of input.
-/

namespace Msgpack

open CLib

/-! ### Objects -/

/-- A decoded object (`msgpack_object`), by the type tag the reader gives it. -/
inductive Object
  | nil
  | boolean (b : Bool)
  | positiveInteger (u : UInt64)
  | negativeInteger (i : Int64)
  | float (bits : UInt64)
  | str (bytes : List UInt8)
  | bin (bytes : List UInt8)
  | ext (type : UInt8) (bytes : List UInt8)
  | array (elems : List Object)
  | map (pairs : List (Object × Object))

/-- Is the object tagged as a string? -/
def Object.isStr : Object → Bool
  | .str _ => true
  | _ => false

theorem Object.isStr_iff {obj : Object} : obj.isStr = true ↔ ∃ bytes, obj = .str bytes := by
  cases obj <;> simp [isStr]

/-- The object an `int` is read back as: the reader tags it by its sign. -/
def Object.ofInt (i : Int32) : Object :=
  if 0 ≤ i then .positiveInteger (wordOfInt i) else .negativeInteger i.toInt64

theorem Object.ofInt_nonneg {i : Int32} (h : 0 ≤ i) :
    Object.ofInt i = .positiveInteger (wordOfInt i) := if_pos h

theorem Object.ofInt_neg {i : Int32} (h : ¬ 0 ≤ i) :
    Object.ofInt i = .negativeInteger i.toInt64 := if_neg h

/-- The return code that ends a loop over a buffer: every code of the reader
other than success. -/
inductive UnpackEnd
  /-- The end of the input, or an object that is not complete at it. -/
  | «continue»
  /-- Bytes that start no object. -/
  | parseError
  | nomemError
  deriving DecidableEq

/-- What reading a buffer object by object gives: the objects, in order, and
the return code of the call after the last one. -/
structure Unpacked where
  objects : List Object
  status : UnpackEnd

/-! ### Packer calls -/

/-- One call of the packer. A string's body is written by a call of its own. -/
inductive Token
  | packMap (n : Nat)
  | packArray (n : Nat)
  | packStr (n : Nat)
  | packStrBody (bytes : List UInt8)
  | packInt (i : Int32)
  deriving DecidableEq

/-- A collection that waits for `left + 1` more entries. A map waits for a key
or, with a key read, for its value. -/
inductive Frame
  | array (left : Nat) (elems : List Object)
  | key (left : Nat) (pairs : List (Object × Object))
  | val (left : Nat) (pairs : List (Object × Object)) (key : Object)

/-- Hand a finished object to the innermost frame; a collection that is full
is itself a finished object for the next one. An object no frame waits for is a
top-level one and is emitted. -/
def complete : List Frame → Object → List Frame × List Object
  | [], o => ([], [o])
  | .array 0 elems :: fs, o => complete fs (.array (elems ++ [o]))
  | .array (left + 1) elems :: fs, o => (.array left (elems ++ [o]) :: fs, [])
  | .key left pairs :: fs, o => (.val left pairs o :: fs, [])
  | .val 0 pairs k :: fs, o => complete fs (.map (pairs ++ [(k, o)]))
  | .val (left + 1) pairs k :: fs, o => (.key left (pairs ++ [(k, o)]) :: fs, [])

/-- What is read in one piece: an object without parts, or the header of a
collection. -/
inductive Item
  | object (o : Object)
  | array (n : Nat)
  | map (n : Nat)

/-- Put an item under the open frames: a collection without entries is finished,
any other is a new frame. -/
def push (fs : List Frame) : Item → List Frame × List Object
  | .object o => complete fs o
  | .array 0 => complete fs (.array [])
  | .array (n + 1) => (.array n [] :: fs, [])
  | .map 0 => complete fs (.map [])
  | .map (n + 1) => (.key n [] :: fs, [])

/-- Put items under the open frames, one after the other: the frames that are open
then, and the top-level objects emitted. -/
def pushAll : List Frame → List Item → List Frame × List Object
  | fs, [] => (fs, [])
  | fs, it :: its =>
      ((pushAll (push fs it).1 its).1, (push fs it).2 ++ (pushAll (push fs it).1 its).2)

/-- Read tokens under open frames. The result is the list of top-level objects,
or `none` when the tokens end inside an object or a string's body does not have
the announced length. -/
def run (fs : List Frame) : List Token → Option (List Object)
  | [] => if fs.isEmpty then some [] else none
  | .packInt i :: ts =>
      (run (complete fs (.ofInt i)).1 ts).map ((complete fs (.ofInt i)).2 ++ ·)
  | .packStr n :: .packStrBody bytes :: ts =>
      if bytes.length = n then
        (run (complete fs (.str bytes)).1 ts).map ((complete fs (.str bytes)).2 ++ ·)
      else none
  | .packStr _ :: _ => none
  | .packStrBody _ :: _ => none
  | .packArray 0 :: ts =>
      (run (complete fs (.array [])).1 ts).map ((complete fs (.array [])).2 ++ ·)
  | .packArray (n + 1) :: ts => run (.array n [] :: fs) ts
  | .packMap 0 :: ts =>
      (run (complete fs (.map [])).1 ts).map ((complete fs (.map [])).2 ++ ·)
  | .packMap (n + 1) :: ts => run (.key n [] :: fs) ts

/-- The objects a token list amounts to, with nothing left over. -/
def parse (ts : List Token) : Option (List Object) := run [] ts

/-- Go on with `rest` after the object `o` was read under the frames `fs`. -/
def resume (fs : List Frame) (o : Object) (rest : List Token) : Option (List Object) :=
  (run (complete fs o).1 rest).map ((complete fs o).2 ++ ·)

/-! ### Tokens as items -/

/-- The tokens that write an item. -/
inductive Writes : List Token → Item → Prop
  | int (i : Int32) : Writes [.packInt i] (.object (.ofInt i))
  | str (bytes : List UInt8) :
      Writes [.packStr bytes.length, .packStrBody bytes] (.object (.str bytes))
  | array (n : Nat) : Writes [.packArray n] (.array n)
  | map (n : Nat) : Writes [.packMap n] (.map n)

/-- The tokens that write items, one after the other. -/
inductive WritesAll : List Token → List Item → Prop
  | nil : WritesAll [] []
  | cons {ts us : List Token} {it : Item} {its : List Item} (h : Writes ts it)
      (hrest : WritesAll us its) : WritesAll (ts ++ us) (it :: its)

theorem Writes.all {ts : List Token} {it : Item} (h : Writes ts it) : WritesAll ts [it] := by
  have hall := WritesAll.cons h .nil
  rwa [List.append_nil] at hall

theorem WritesAll.append {ts us : List Token} {its jts : List Item} (h : WritesAll ts its)
    (h' : WritesAll us jts) : WritesAll (ts ++ us) (its ++ jts) := by
  induction h with
  | nil => exact h'
  | cons hit _ ih =>
      rw [List.append_assoc]
      exact .cons hit ih

theorem pushAll_append (fs : List Frame) (its jts : List Item) :
    pushAll fs (its ++ jts) =
      ((pushAll (pushAll fs its).1 jts).1,
        (pushAll fs its).2 ++ (pushAll (pushAll fs its).1 jts).2) := by
  induction its generalizing fs with
  | nil => rfl
  | cons it its ih => simp only [List.cons_append, pushAll, ih, List.append_assoc]

/-- An object closes all frames only as a top-level object. -/
theorem complete_ne_nil {fs : List Frame} {o : Object} (h : (complete fs o).1 = []) :
    (complete fs o).2 ≠ [] := by
  fun_induction complete fs o with
  | case1 => simp
  | case2 _ _ _ ih => exact ih h
  | case3 => exact absurd h (by simp)
  | case4 => exact absurd h (by simp)
  | case5 _ _ _ _ ih => exact ih h
  | case6 => exact absurd h (by simp)

theorem push_ne_nil {fs : List Frame} {it : Item} (h : (push fs it).1 = []) :
    (push fs it).2 ≠ [] := by
  fun_cases push fs it with
  | case1 => exact complete_ne_nil h
  | case2 => exact complete_ne_nil h
  | case3 => exact absurd h (by simp [push])
  | case4 => exact complete_ne_nil h
  | case5 => exact absurd h (by simp [push])

/-- Items after which nothing is open have emitted something. -/
theorem eq_nil_of_pushAll {fs : List Frame} {its : List Item} (h : pushAll fs its = ([], [])) :
    its = [] := by
  induction its generalizing fs with
  | nil => rfl
  | cons it its ih =>
      rw [pushAll, Prod.mk.injEq, List.append_eq_nil_iff] at h
      obtain ⟨hopen, hfirst, hrest⟩ := h
      have hpush : pushAll (push fs it).1 its = ([], []) := Prod.ext hopen hrest
      have hnil : its = [] := ih hpush
      rw [hnil] at hopen
      exact absurd hfirst (push_ne_nil hopen)

theorem run_writes {ts : List Token} {it : Item} (h : Writes ts it) (fs : List Frame)
    (rest : List Token) :
    run fs (ts ++ rest) = (run (push fs it).1 rest).map ((push fs it).2 ++ ·) := by
  cases h with
  | int i => rfl
  | str bytes => simp only [List.cons_append, List.nil_append, run, if_true, push]
  | array n =>
      cases n with
      | zero => rfl
      | succ n => simp [run, push]
  | map n =>
      cases n with
      | zero => rfl
      | succ n => simp [run, push]

/-- Reading tokens is pushing the items they write. -/
theorem run_writesAll {ts : List Token} {its : List Item} (h : WritesAll ts its)
    (fs : List Frame) (rest : List Token) :
    run fs (ts ++ rest) = (run (pushAll fs its).1 rest).map ((pushAll fs its).2 ++ ·) := by
  induction h generalizing fs with
  | nil => simp [pushAll]
  | cons hit _ ih =>
      rw [List.append_assoc, run_writes hit, ih, Option.map_map]
      simp only [pushAll, List.append_assoc, Function.comp_def]

/-- Tokens that are read to their end write items. -/
theorem writesAll_of_run {fs : List Frame} {ts : List Token} {os : List Object}
    (h : run fs ts = some os) : ∃ its, WritesAll ts its ∧ pushAll fs its = ([], os) := by
  have hcons : ∀ {ts us : List Token} {it : Item} {fs : List Frame} {os : List Object},
      Writes ts it → (∀ os', run (push fs it).1 us = some os' →
        ∃ its, WritesAll us its ∧ pushAll (push fs it).1 its = ([], os')) →
      (run (push fs it).1 us).map ((push fs it).2 ++ ·) = some os →
      ∃ its, WritesAll (ts ++ us) its ∧ pushAll fs its = ([], os) := by
    intro ts us it fs os hit ih hrun
    obtain ⟨os', hos', rfl⟩ := Option.map_eq_some_iff.mp hrun
    obtain ⟨its, hits, hpush⟩ := ih os' hos'
    exact ⟨it :: its, .cons hit hits, by rw [pushAll, hpush]⟩
  fun_induction run fs ts generalizing os with
  | case1 fs hempty =>
      obtain rfl := Option.some.inj h
      refine ⟨[], .nil, ?_⟩
      rw [pushAll, List.isEmpty_iff.mp hempty]
  | case2 fs hne => exact absurd h (by simp)
  | case3 fs i ts ih => exact hcons (.int i) (fun _ => ih) h
  | case4 fs bytes ts ih => exact hcons (.str bytes) (fun _ => ih) h
  | case5 => exact absurd h (by simp)
  | case6 => exact absurd h (by simp)
  | case7 => exact absurd h (by simp)
  | case8 fs ts ih => exact hcons (.array 0) (fun _ => ih) h
  | case9 fs n ts ih =>
      obtain ⟨its, hits, hpush⟩ := ih h
      exact ⟨.array (n + 1) :: its, .cons (.array _) hits, by simp [pushAll, push, hpush]⟩
  | case10 fs ts ih => exact hcons (.map 0) (fun _ => ih) h
  | case11 fs n ts ih =>
      obtain ⟨its, hits, hpush⟩ := ih h
      exact ⟨.map (n + 1) :: its, .cons (.map _) hits, by simp [pushAll, push, hpush]⟩

/-- Complete objects, before whatever follows. -/
theorem parse_append {ts : List Token} {os : List Object} (h : parse ts = some os)
    (rest : List Token) : parse (ts ++ rest) = (parse rest).map (os ++ ·) := by
  obtain ⟨its, hits, hpush⟩ := writesAll_of_run h
  rw [parse, run_writesAll hits, hpush]
  rfl

/-- One complete object after the other. -/
theorem parse_flatten {tss : List (List Token)} {os : List Object}
    (h : List.Forall₂ (fun ts o => parse ts = some [o]) tss os) : parse tss.flatten = some os := by
  induction h with
  | nil => rfl
  | cons hts _ ih =>
      rw [List.flatten_cons, parse_append hts, ih]
      rfl

/-! ### What a list of tokens amounts to -/

/-- The tokens `ts` amount to the object `o`, whatever surrounds them. -/
def Encodes (ts : List Token) (o : Object) : Prop :=
  ∀ fs rest, run fs (ts ++ rest) = resume fs o rest

/-- The tokens `ts` write the object `o`: the items they write complete it, under
whatever frames. -/
def Completes (ts : List Token) (o : Object) : Prop :=
  ∃ its, WritesAll ts its ∧ ∀ fs, pushAll fs its = complete fs o

theorem Completes.encodes {ts : List Token} {o : Object} (h : Completes ts o) :
    Encodes ts o := by
  obtain ⟨its, hits, hpush⟩ := h
  intro fs rest
  rw [run_writesAll hits, hpush, resume]

theorem Completes.int (i : Int32) : Completes [.packInt i] (.ofInt i) :=
  ⟨_, (Writes.int i).all, fun fs => by simp [pushAll, push]⟩

theorem Completes.str (bytes : List UInt8) :
    Completes [.packStr bytes.length, .packStrBody bytes] (.str bytes) :=
  ⟨_, (Writes.str bytes).all, fun fs => by simp [pushAll, push]⟩

/-- Elements pushed into an open array close it exactly at the announced count. -/
theorem pushAll_array_elems {tss : List (List Token)} {xs : List Object}
    (h : List.Forall₂ Completes tss xs) (hne : xs ≠ []) :
    ∃ its, WritesAll tss.flatten its ∧ ∀ fs elems,
      pushAll (.array (xs.length - 1) elems :: fs) its = complete fs (.array (elems ++ xs)) := by
  induction h with
  | nil => exact absurd rfl hne
  | @cons ts x tss xs hx htl ih =>
      obtain ⟨its, hits, hpush⟩ := hx
      cases xs with
      | nil =>
          -- The last element closes the array.
          cases htl
          refine ⟨its, by simpa using hits, ?_⟩
          intro fs elems
          rw [hpush]
          rfl
      | cons y ys =>
          obtain ⟨jts, hjts, hrest⟩ := ih (by simp)
          refine ⟨its ++ jts, hits.append hjts, ?_⟩
          intro fs elems
          have hstep := hrest fs (elems ++ [x])
          simp only [List.length_cons, Nat.add_sub_cancel] at hstep ⊢
          rw [pushAll_append, hpush]
          simp only [complete, hstep, List.nil_append, List.append_assoc, List.cons_append]

/-- An array header followed by as many objects as it announces. -/
theorem Completes.array {tss : List (List Token)} {xs : List Object}
    (h : List.Forall₂ Completes tss xs) :
    Completes (.packArray xs.length :: tss.flatten) (.array xs) := by
  cases xs with
  | nil =>
      cases h
      exact ⟨_, (Writes.array 0).all, fun fs => by simp [pushAll, push]⟩
  | cons x xs =>
      obtain ⟨its, hits, hpush⟩ := pushAll_array_elems h (by simp)
      refine ⟨.array (xs.length + 1) :: its, .cons (.array _) hits, ?_⟩
      intro fs
      rw [pushAll]
      simpa [push] using hpush fs []

/-- A one-entry map: the header, the tokens of the key, those of the value. -/
theorem Completes.entry {ks vs : List Token} {k v : Object} (hk : Completes ks k)
    (hv : Completes vs v) : Completes (.packMap 1 :: (ks ++ vs)) (.map [(k, v)]) := by
  obtain ⟨its, hits, hkey⟩ := hk
  obtain ⟨jts, hjts, hval⟩ := hv
  refine ⟨.map 1 :: (its ++ jts), .cons (.map 1) (hits.append hjts), ?_⟩
  intro fs
  rw [pushAll, pushAll_append]
  simp only [push, hkey, complete, hval, List.nil_append]

/-- Tokens that amount to an object, before tokens that parse. -/
theorem Encodes.parse_append {ts rest : List Token} {o : Object} {os : List Object}
    (ho : Encodes ts o) (h : parse rest = some os) : parse (ts ++ rest) = some (o :: os) := by
  rw [parse, ho]
  simp only [resume, complete]
  rw [show run [] rest = some os from h]
  rfl

/-- Tokens that amount to an object parse to it. -/
theorem Encodes.parse {ts : List Token} {o : Object} (ho : Encodes ts o) :
    parse ts = some [o] := by
  have h := ho.parse_append (show Msgpack.parse [] = some [] from rfl)
  rwa [List.append_nil] at h

/-! ### The reader and the packer -/

/-- The library as a program sees it: buffers, what reading one gives, and the
buffer a sequence of packer calls leaves. `viaStr` is the access
`via.str` of an object: its bytes if it is a string, and something else the
library does not define if it is not. -/
structure Codec where
  Buffer : Type
  unpack : Buffer → Unpacked
  pack : List Token → Buffer
  viaStr : Object → List UInt8
  /-- The reader decodes what the packer packed. -/
  unpack_pack : ∀ {ts : List Token} {os : List Object},
    parse ts = some os → unpack (pack ts) = ⟨os, .«continue»⟩
  viaStr_str : ∀ bytes, viaStr (.str bytes) = bytes

attribute [simp] Codec.viaStr_str

/-- A codec that keeps the objects themselves in its buffers. -/
def Codec.ofObjects : Codec where
  Buffer := Unpacked
  unpack := id
  pack ts := match parse ts with
    | some os => ⟨os, .«continue»⟩
    | none => ⟨[], .parseError⟩
  viaStr
    | .str bytes => bytes
    | _ => []
  unpack_pack h := by simp only [id, h]
  viaStr_str _ := rfl

end Msgpack

import Mathlib.Data.List.Nodup
/-!
# RpcBroker.Lib.CBlock

**Blocks of C with declarations**, as far as generated glue code needs them: an
`if` with a block of declarations, calls and one-armed `if`s. Names are resolved
from the innermost scope outwards, and a declared name is in scope from its own
initialiser on, where it has no value yet.

What the code runs on (`Runtime`) is a parameter: the values, what its functions do
with them, and what they put out. `Block.check` is the compiler's view: every name
must be declared as what it is used as, and declared once in a block. A pointer
where a number is wanted, and the other way round, is let through, as compilers do
with a warning.

`lookup_declare_of_mem` and `lookup_declare_of_notMem` say what a name means behind a
list of declarations; `checkAll_decls` and the rules behind it say what it takes to
compile.
-/

namespace CBlock

abbrev Ident := List UInt8

/-- Types. -/
inductive CTy
  | void
  | int
  | bool
  | charPtr
  | charPtrPtr
  /-- A type by its name, which is not a keyword. -/
  | named (x : Ident)
  | ptrTo (x : Ident)
  deriving DecidableEq

/-- Expressions. A call keeps what its arguments are separated with. -/
inductive Expr
  | var (x : Ident)
  /-- `&x` -/
  | addr (x : Ident)
  /-- `"s"` -/
  | str (s : Ident)
  /-- `*(int*) x[i]` -/
  | intAt (x : Ident) (i : Nat)
  /-- `(char*) x[i]` -/
  | strAt (x : Ident) (i : Nat)
  | call (g sep : Ident) (args : List Expr)

/-- Statements, and the blank lines between them. -/
inductive Stmt
  | blank
  | decl (type : CTy) (x : Ident) (init : Option Expr)
  | expr (e : Expr)
  /-- `if (cond) body;` -/
  | ifExpr (cond body : Expr)

/-- `if (cond) \{ body \}` -/
structure Block where
  cond : Expr
  body : List Stmt

/-! ### Running a block -/

/-- What a block runs on: values `V`, and what its functions put out. Each operation
may have no defined result. -/
structure Runtime (V O : Type) where
  str : Ident → V
  addr : V → V
  intAt : V → Nat → Option V
  strAt : V → Nat → Option V
  truth : V → Option Bool
  /-- What a variable holds that is declared without an initialiser. -/
  fresh : CTy → Option V
  fn : Ident → List V → Option (V × List O)

/-- The variables in scope, innermost first. One without a value is `none`. -/
abbrev Env (V : Type) := List (Ident × Option V)

/-- The value of a variable. -/
def valueOf {V : Type} (env : Env V) (x : Ident) : Option V := (env.lookup x).join

variable {V O : Type} (H : Runtime V O)

mutual

/-- The value of an expression, and what evaluating it puts out. The name of a
function must not be hidden by a variable. -/
def eval (env : Env V) : Expr → Option (V × List O)
  | .var x => (valueOf env x).map (·, [])
  | .addr x => (valueOf env x).map (H.addr ·, [])
  | .str s => some (H.str s, [])
  | .intAt x i => ((valueOf env x).bind (H.intAt · i)).map (·, [])
  | .strAt x i => ((valueOf env x).bind (H.strAt · i)).map (·, [])
  | .call g _ args =>
      if (env.lookup g).isSome then none
      else do
        let (vs, os) ← evalArgs env args
        let (v, os') ← H.fn g vs
        return (v, os ++ os')

def evalArgs (env : Env V) : List Expr → Option (List V × List O)
  | [] => some ([], [])
  | e :: es => do
      let (v, os) ← eval env e
      let (vs, os') ← evalArgs env es
      return (v :: vs, os ++ os')

end

/-- One statement. -/
def exec (env : Env V) : Stmt → Option (Env V × List O)
  | .blank => some (env, [])
  | .decl type x none => some ((x, H.fresh type) :: env, [])
  | .decl _ x (some e) => do
      let (v, os) ← eval H ((x, none) :: env) e
      return ((x, some v) :: env, os)
  | .expr e => do
      let (_, os) ← eval H env e
      return (env, os)
  | .ifExpr cond body => do
      let (v, os) ← eval H env cond
      if ← H.truth v then
        let (_, os') ← eval H env body
        return (env, os ++ os')
      else return (env, os)

/-- One statement after the other. -/
def execAll (env : Env V) : List Stmt → Option (Env V × List O)
  | [] => some (env, [])
  | s :: ss => do
      let (env', os) ← exec H env s
      let (env'', os') ← execAll env' ss
      return (env'', os ++ os')

/-- What a block puts out, run where these variables are in scope. -/
def Block.run (env : Env V) (block : Block) : Option (List O) := do
  let (v, os) ← eval H env block.cond
  if ← H.truth v then
    let (_, os') ← execAll H env block.body
    return os ++ os'
  else return os

/-! ### Compiling a block -/

/-- What a name is declared as. -/
inductive Entity
  | var (type : CTy)
  | typedef
  | func (params : List CTy) (variadic : Bool) (ret : CTy)

/-- The names in scope, innermost first. -/
abbrev Scope := List (Ident × Entity)

/-- Numbers and pointers. -/
def CTy.scalar : CTy → Bool
  | .void => false
  | .named _ => false
  | _ => true

/-- A value of the second type may stand for one of the first. -/
def CTy.accepts (t u : CTy) : Bool := (t.scalar && u.scalar) || t = u

/-- The arguments a function takes. -/
def fits : List CTy → Bool → List CTy → Bool
  | [], variadic, types => if variadic then types.all (· ≠ .void) else types.isEmpty
  | _ :: _, _, [] => false
  | p :: ps, variadic, t :: ts => p.accepts t && fits ps variadic ts

/-- `x[i]` is a pointer or a character. -/
def subscriptable (scope : Scope) (x : Ident) : Bool :=
  match scope.lookup x with
  | some (.var .charPtrPtr) => true
  | some (.var .charPtr) => true
  | _ => false

mutual

/-- The type of an expression. -/
def typeOf (scope : Scope) : Expr → Option CTy
  | .var x =>
      match scope.lookup x with
      | some (.var type) => some type
      | _ => none
  | .addr x =>
      match scope.lookup x with
      | some (.var (.named n)) => some (.ptrTo n)
      | _ => none
  | .str _ => some .charPtr
  | .intAt x _ => if subscriptable scope x then some .int else none
  | .strAt x _ => if subscriptable scope x then some .charPtr else none
  | .call g _ args =>
      match scope.lookup g with
      | some (.func params variadic ret) => do
          let types ← typesOf scope args
          if fits params variadic types then some ret else none
      | _ => none

def typesOf (scope : Scope) : List Expr → Option (List CTy)
  | [] => some []
  | e :: es => do
      let t ← typeOf scope e
      let ts ← typesOf scope es
      return t :: ts

end

/-- A type that variables may have here. -/
def CTy.declarable (scope : Scope) : CTy → Bool
  | .void => false
  | .named n | .ptrTo n =>
      match scope.lookup n with
      | some .typedef => true
      | _ => false
  | _ => true

/-- The initialiser of a variable of this type, if there is one. -/
def checkInit (scope : Scope) (type : CTy) : Option Expr → Bool
  | none => true
  | some e =>
      match typeOf scope e with
      | some t => type.accepts t
      | none => false

/-- One statement, where `here` are the names declared in the block so far: the
names declared behind it, and the scope. -/
def check (here : List Ident) (scope : Scope) : Stmt → Option (List Ident × Scope)
  | .blank => some (here, scope)
  | .decl type x init =>
      if type.declarable scope && !here.contains x &&
          checkInit ((x, .var type) :: scope) type init then
        some (x :: here, (x, .var type) :: scope)
      else none
  | .expr e => if (typeOf scope e).isSome then some (here, scope) else none
  | .ifExpr cond body =>
      if (typeOf scope cond).any CTy.scalar && (typeOf scope body).isSome then some (here, scope)
      else none

/-- One statement after the other. -/
def checkAll (here : List Ident) (scope : Scope) : List Stmt → Option (List Ident × Scope)
  | [] => some (here, scope)
  | s :: ss => do
      let (here', scope') ← check here scope s
      checkAll here' scope' ss

/-- The block compiles in this scope. -/
def Block.check (scope : Scope) (block : Block) : Bool :=
  (typeOf scope block.cond).any CTy.scalar && (checkAll [] scope block.body).isSome

/-! ### Rules -/

variable {H}

/-- Names declared one after the other, innermost last. -/
def declare {α β : Type} (name : β → Ident) (val : β → α) (xs : List β)
    (outer : List (Ident × α)) : List (Ident × α) :=
  (xs.map fun b => (name b, val b)).reverse ++ outer

variable {α β : Type} {name : β → Ident} {val : β → α} {xs : List β}

@[simp] theorem declare_nil (outer : List (Ident × α)) : declare name val [] outer = outer := rfl

theorem declare_cons (b : β) (outer : List (Ident × α)) :
    declare name val (b :: xs) outer = declare name val xs ((name b, val b) :: outer) := by
  simp [declare]

/-- Any other name is what it was before. -/
theorem lookup_declare_of_notMem {x : Ident} (hx : x ∉ xs.map name) (outer : List (Ident × α)) :
    (declare name val xs outer).lookup x = outer.lookup x := by
  induction xs generalizing outer with
  | nil => rfl
  | cons b xs ih =>
      obtain ⟨hne, hrest⟩ := not_or.mp fun h => hx (List.mem_cons.mpr h)
      rw [declare_cons, ih hrest, List.lookup_cons, beq_false_of_ne hne]

/-- Each of distinct names is what it is declared as. -/
theorem lookup_declare_of_mem (h : (xs.map name).Nodup) {b : β} (hb : b ∈ xs)
    (outer : List (Ident × α)) : (declare name val xs outer).lookup (name b) = some (val b) := by
  induction xs generalizing outer with
  | nil => exact absurd hb List.not_mem_nil
  | cons c xs ih =>
      obtain ⟨hc, hnodup⟩ := List.nodup_cons.mp h
      rw [declare_cons]
      rcases List.mem_cons.mp hb with rfl | hb
      · rw [lookup_declare_of_notMem hc, List.lookup_cons, beq_self_eq_true]
      · exact ih hnodup hb _

/-- A name in the inner scopes is found there. -/
theorem lookup_append_of_mem {P : α → Prop} {inner : List (Ident × α)}
    (hP : ∀ d ∈ inner, P d.2) {x : Ident} (hx : x ∈ inner.map Prod.fst)
    (outer : List (Ident × α)) : ∃ a, (inner ++ outer).lookup x = some a ∧ P a := by
  obtain ⟨a, ha⟩ : ∃ a, inner.lookup x = some a := by
    rw [← Option.isSome_iff_exists, List.lookup_isSome_iff]
    obtain ⟨d, hd, rfl⟩ := List.mem_map.mp hx
    exact ⟨d, hd, beq_self_eq_true _⟩
  refine ⟨a, by rw [List.lookup_append, ha, Option.some_or], ?_⟩
  obtain ⟨before, after, rfl, -⟩ := List.lookup_eq_some_iff.mp ha
  exact hP (x, a) (by simp)

@[simp] theorem valueOf_self (x : Ident) (v : Option V) (env : Env V) :
    valueOf ((x, v) :: env) x = v := by
  simp [valueOf]

theorem valueOf_of_ne {x y : Ident} (h : x ≠ y) (v : Option V) (env : Env V) :
    valueOf ((y, v) :: env) x = valueOf env x := by
  rw [valueOf, List.lookup_cons, beq_false_of_ne h]
  rfl

/-- Statements one after the other. -/
theorem execAll_append (env : Env V) (ss ss' : List Stmt) :
    execAll H env (ss ++ ss') = (execAll H env ss).bind fun r =>
      (execAll H r.1 ss').map fun r' => (r'.1, r.2 ++ r'.2) := by
  induction ss generalizing env with
  | nil =>
      show execAll H env ss' = (execAll H env ss').map fun r' => (r'.1, [] ++ r'.2)
      cases execAll H env ss' with
      | none => rfl
      | some r => rfl
  | cons s ss ih =>
      simp only [List.cons_append, execAll, ih]
      cases hs : exec H env s with
      | none => rfl
      | some r =>
          cases hss : execAll H r.1 ss with
          | none => simp [hss]
          | some r' =>
              cases hss' : execAll H r'.1 ss' with
              | none => simp [hss, hss']
              | some r'' => simp [hss, hss']

theorem checkAll_append {here : List Ident} {scope : Scope} {ss ss' : List Stmt}
    {r : List Ident × Scope} :
    checkAll here scope (ss ++ ss') = some r ↔
      ∃ here' scope', checkAll here scope ss = some (here', scope') ∧
        checkAll here' scope' ss' = some r := by
  induction ss generalizing here scope with
  | nil => simp [checkAll]
  | cons s ss ih =>
      simp only [List.cons_append, checkAll]
      cases hs : check here scope s with
      | none => simp
      | some q => simpa using ih

/-- A declaration with an initialiser. -/
structure Decl where
  type : CTy
  name : Ident
  init : Expr

def Decl.stmt (d : Decl) : Stmt := .decl d.type d.name (some d.init)

/-- A list of declarations that compiles declares distinct names, none of them
declared in the block before, and puts them in scope. -/
theorem checkAll_decls {here here' : List Ident} {scope scope' : Scope} {ds : List Decl}
    (h : checkAll here scope (ds.map Decl.stmt) = some (here', scope')) :
    (ds.map Decl.name).Nodup ∧ (∀ d ∈ ds, d.name ∉ here) ∧
      here' = (ds.map Decl.name).reverse ++ here ∧
      scope' = declare Decl.name (fun d => .var d.type) ds scope := by
  induction ds generalizing here scope with
  | nil =>
      obtain ⟨rfl, rfl⟩ := Prod.mk.inj (Option.some.inj h)
      simp
  | cons d ds ih =>
      rw [List.map_cons, checkAll, Decl.stmt, check] at h
      split at h
      · rename_i hok
        obtain ⟨hnodup, hfresh, rfl, rfl⟩ := ih h
        simp only [Bool.and_eq_true, Bool.not_eq_true', List.contains_eq_mem,
          decide_eq_false_iff_not] at hok
        refine ⟨List.nodup_cons.mpr ⟨?_, hnodup⟩, ?_, by simp, (declare_cons ..).symm⟩
        · intro hmem
          obtain ⟨d', hd', heq⟩ := List.mem_map.mp hmem
          exact hfresh d' hd' (heq ▸ List.mem_cons_self ..)
        · refine List.forall_mem_cons.mpr ⟨hok.1.2, fun d' hd' hmem => ?_⟩
          exact hfresh d' hd' (List.mem_cons_of_mem _ hmem)
      · exact absurd h (by simp)

/-! ### What statements do -/

/-- A call of a function no variable hides. -/
theorem eval_call {env : Env V} {g sep : Ident} {args : List Expr} {vs : List V} {os : List O}
    (hg : env.lookup g = none) (hargs : evalArgs H env args = some (vs, os)) :
    eval H env (.call g sep args) = (H.fn g vs).map fun r => (r.1, os ++ r.2) := by
  rw [eval, hg, Option.isSome_none, if_neg Bool.false_ne_true, hargs]
  cases hfn : H.fn g vs with
  | none => simp [hfn]
  | some r => simp [hfn]

/-- Variables with values, as arguments. -/
theorem evalArgs_vars {β : Type} {env : Env V} {name : β → Ident} {val : β → V} {xs : List β}
    (h : ∀ b ∈ xs, valueOf env (name b) = some (val b)) :
    evalArgs H env (xs.map fun b => .var (name b)) = some (xs.map val, []) := by
  induction xs with
  | nil => rfl
  | cons b xs ih =>
      obtain ⟨hb, hxs⟩ := List.forall_mem_cons.mp h
      simp [evalArgs, eval, hb, ih hxs]

theorem exec_decl (env : Env V) (type : CTy) (x : Ident) (e : Expr) :
    exec H env (.decl type x (some e)) =
      (eval H ((x, none) :: env) e).map fun r => ((x, some r.1) :: env, r.2) := by
  rw [exec]
  cases eval H ((x, none) :: env) e with
  | none => rfl
  | some r => rfl

theorem exec_expr (env : Env V) (e : Expr) :
    exec H env (.expr e) = (eval H env e).map fun r => (env, r.2) := by
  rw [exec]
  cases eval H env e with
  | none => rfl
  | some r => rfl

theorem exec_ifExpr {env : Env V} {cond body : Expr} {v : V} {os : List O} {b : Bool}
    (hcond : eval H env cond = some (v, os)) (htruth : H.truth v = some b) :
    exec H env (.ifExpr cond body) =
      if b then (eval H env body).map fun r => (env, os ++ r.2) else some (env, os) := by
  rw [exec, hcond]
  simp only [Option.bind_eq_bind, Option.bind_some, htruth]
  cases b with
  | false => rfl
  | true =>
      cases eval H env body with
      | none => rfl
      | some r => rfl

theorem execAll_cons (env : Env V) (s : Stmt) (ss : List Stmt) :
    execAll H env (s :: ss) = (exec H env s).bind fun r =>
      (execAll H r.1 ss).map fun r' => (r'.1, r.2 ++ r'.2) := by
  rw [execAll]
  cases exec H env s with
  | none => rfl
  | some r =>
      cases hss : execAll H r.1 ss with
      | none => simp [hss]
      | some r' => simp [hss]

/-- A block whose condition holds does what its body does. -/
theorem Block.run_of_true {env : Env V} {block : Block} {v : V} {os : List O}
    (hcond : eval H env block.cond = some (v, os)) (htruth : H.truth v = some true) :
    block.run H env = (execAll H env block.body).map fun r => os ++ r.2 := by
  rw [Block.run, hcond]
  simp only [Option.bind_eq_bind, Option.bind_some, htruth, if_true]
  cases execAll H env block.body with
  | none => rfl
  | some r => rfl

/-- A block whose condition does not hold does nothing else. -/
theorem Block.run_of_false {env : Env V} {block : Block} {v : V} {os : List O}
    (hcond : eval H env block.cond = some (v, os)) (htruth : H.truth v = some false) :
    block.run H env = some os := by
  rw [Block.run, hcond]
  simp only [Option.bind_eq_bind, Option.bind_some, htruth, Bool.false_eq_true, if_false]
  rfl

/-! ### What it takes to compile -/

theorem checkAll_cons {here : List Ident} {scope : Scope} {s : Stmt} {ss : List Stmt}
    {r : List Ident × Scope} :
    checkAll here scope (s :: ss) = some r ↔
      ∃ here' scope', check here scope s = some (here', scope') ∧
        checkAll here' scope' ss = some r := by
  rw [checkAll]
  cases check here scope s with
  | none => simp
  | some q =>
      obtain ⟨here', scope'⟩ := q
      simp

theorem declarable_named {scope : Scope} {x : Ident} :
    (CTy.named x).declarable scope = true ↔ scope.lookup x = some .typedef := by
  rw [CTy.declarable]
  split
  · rename_i h
    simp [h]
  · rename_i h
    simpa using h

theorem checkInit_some {scope : Scope} {type : CTy} {e : Expr} :
    checkInit scope type (some e) = true ↔ ∃ t, typeOf scope e = some t ∧ type.accepts t = true := by
  rw [checkInit]
  split
  · rename_i t h
    simp [h]
  · rename_i h
    simp [h]

theorem check_decl {here : List Ident} {scope : Scope} {type : CTy} {x : Ident}
    {init : Option Expr} {r : List Ident × Scope} :
    check here scope (.decl type x init) = some r ↔
      type.declarable scope = true ∧ x ∉ here ∧
        checkInit ((x, .var type) :: scope) type init = true ∧
        r = (x :: here, (x, .var type) :: scope) := by
  rw [check, Option.ite_none_right_eq_some, Option.some.injEq, eq_comm (b := r)]
  simp only [Bool.and_eq_true, Bool.not_eq_true', List.contains_eq_mem, decide_eq_false_iff_not,
    and_assoc]

theorem check_expr {here : List Ident} {scope : Scope} {e : Expr} {r : List Ident × Scope} :
    check here scope (.expr e) = some r ↔ (∃ t, typeOf scope e = some t) ∧ r = (here, scope) := by
  rw [check, Option.ite_none_right_eq_some, Option.isSome_iff_exists, Option.some.injEq,
    eq_comm (b := r)]

theorem check_ifExpr {here : List Ident} {scope : Scope} {cond body : Expr}
    {r : List Ident × Scope} :
    check here scope (.ifExpr cond body) = some r ↔
      (∃ t, typeOf scope cond = some t ∧ t.scalar = true) ∧ (∃ t, typeOf scope body = some t) ∧
        r = (here, scope) := by
  rw [check, Option.ite_none_right_eq_some, Bool.and_eq_true, Option.any_eq_true,
    Option.isSome_iff_exists, Option.some.injEq, and_assoc, eq_comm (b := r)]

/-- A call is of a name declared as a function. -/
theorem typeOf_call {scope : Scope} {g sep : Ident} {args : List Expr} {t : CTy} :
    typeOf scope (.call g sep args) = some t ↔
      ∃ params variadic types, scope.lookup g = some (.func params variadic t) ∧
        typesOf scope args = some types ∧ fits params variadic types = true := by
  rw [typeOf]
  split
  · rename_i params variadic ret hg
    cases hargs : typesOf scope args with
    | none => simp [hg]
    | some types =>
        simp only [hg, Option.bind_eq_bind, Option.bind_some, Option.ite_none_right_eq_some,
          Option.some.injEq, Entity.func.injEq]
        constructor
        · rintro ⟨hfits, rfl⟩
          exact ⟨params, variadic, types, ⟨rfl, rfl, rfl⟩, rfl, hfits⟩
        · rintro ⟨_, _, _, ⟨rfl, rfl, rfl⟩, rfl, hfits⟩
          exact ⟨hfits, rfl⟩
  · rename_i hnot
    simp only [reduceCtorEq, false_iff]
    rintro ⟨params, variadic, types, hg, -⟩
    exact hnot _ _ _ hg

theorem typesOf_cons {scope : Scope} {e : Expr} {es : List Expr} {ts : List CTy} :
    typesOf scope (e :: es) = some ts ↔
      ∃ t ts', typeOf scope e = some t ∧ typesOf scope es = some ts' ∧ ts = t :: ts' := by
  rw [typesOf]
  cases typeOf scope e with
  | none => simp
  | some t =>
      cases typesOf scope es with
      | none => simp
      | some ts' => simp [eq_comm]

mutual

/-- The functions an expression calls. -/
def Expr.calls : Expr → List Ident
  | .call g _ args => g :: callsAll args
  | _ => []

def callsAll : List Expr → List Ident
  | [] => []
  | e :: es => e.calls ++ callsAll es

end

mutual

/-- What an expression with a type calls is declared as a function. -/
theorem func_of_mem_calls {scope : Scope} {g : Ident} :
    ∀ {e : Expr} {t : CTy}, typeOf scope e = some t → g ∈ e.calls →
      ∃ params variadic ret, scope.lookup g = some (.func params variadic ret)
  | .call _ _ _, _, ht, hg => by
      obtain ⟨params, variadic, types, hlookup, hargs, -⟩ := typeOf_call.mp ht
      rw [Expr.calls, List.mem_cons] at hg
      rcases hg with rfl | hg
      · exact ⟨params, variadic, _, hlookup⟩
      · exact func_of_mem_callsAll hargs hg
  | .var _, _, _, hg => absurd hg List.not_mem_nil
  | .addr _, _, _, hg => absurd hg List.not_mem_nil
  | .str _, _, _, hg => absurd hg List.not_mem_nil
  | .intAt _ _, _, _, hg => absurd hg List.not_mem_nil
  | .strAt _ _, _, _, hg => absurd hg List.not_mem_nil

theorem func_of_mem_callsAll {scope : Scope} {g : Ident} :
    ∀ {es : List Expr} {ts : List CTy}, typesOf scope es = some ts → g ∈ callsAll es →
      ∃ params variadic ret, scope.lookup g = some (.func params variadic ret)
  | [], _, _, hg => absurd hg List.not_mem_nil
  | _ :: _, _, hts, hg => by
      obtain ⟨t, ts', ht, hts', -⟩ := typesOf_cons.mp hts
      rw [callsAll, List.mem_append] at hg
      rcases hg with hg | hg
      · exact func_of_mem_calls ht hg
      · exact func_of_mem_callsAll hts' hg

end

end CBlock

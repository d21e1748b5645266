import RpcBroker.Lib.CBlock
/-!
# RpcBroker.Lib.CFunction

**Functions of C that make calls**, as far as generated glue code needs them:
declarations, calls, copies of members and a `return`, one after the other. The
parameters and the variables of a function share one scope, in which no name is declared
twice; they hide the names of the file.

A function that is passed the address of a variable may change what it holds. What
functions do, and with which values, is a parameter (`Runtime`), as in `CBlock`, whose
types and scopes these are. `Function.check` is the compiler's view.
-/

namespace CFunction

open CBlock

/-- What a function is passed. -/
inductive Arg
  | var (x : Ident)
  /-- `&x` -/
  | addr (x : Ident)
  /-- `"s"` -/
  | str (s : Ident)
  /-- `(char*)__func__` -/
  | funcName
  /-- A string a header gives a name. -/
  | const (x : Ident)

/-- A call: its arguments, each with the text in front of it, and the text behind the
last. -/
structure Call where
  fn : Ident
  args : List (Ident × Arg)
  close : Ident

/-- Statements. -/
inductive Stmt
  /-- `type x;` -/
  | decl (type x : Ident)
  /-- `c;` -/
  | call (c : Call)
  /-- `x.m = y.n;` -/
  | copy (x m y n : Ident)
  /-- `type *x = c;` -/
  | declPtr (type x : Ident) (c : Call)
  /-- `return c;` -/
  | ret (c : Call)

/-- A function, its body line by line. -/
structure Function where
  ret : CTy
  name : Ident
  params : List (CTy × Ident)
  lines : List (List Stmt)

/-! ### Running a function -/

/-- What a function runs on. -/
structure Runtime (V O : Type) where
  str : Ident → V
  /-- The address of a variable that holds this. -/
  addr : V → V
  const : Ident → V
  /-- What a variable of a type holds that is declared without an initialiser. -/
  fresh : Ident → Option V
  member : Ident → V → Option V
  /-- A structure with a new value for a member. -/
  assign : Ident → V → V → Option V
  /-- What a function returns, what the variables hold then whose addresses it was
  passed, and what it puts out. -/
  fn : Ident → List V → Option (V × List V × List O)

variable {V O : Type} (H : Runtime V O) (name : Ident)

def evalArg (env : Env V) : Arg → Option V
  | .var x => valueOf env x
  | .addr x => (valueOf env x).map H.addr
  | .str s => some (H.str s)
  | .funcName => some (H.str name)
  | .const x => some (H.const x)

/-- The variable whose address this is. -/
def Arg.addr? : Arg → Option Ident
  | .addr x => some x
  | _ => none

/-- The variables whose addresses are passed. -/
def Call.addrs (c : Call) : List Ident := c.args.filterMap fun arg => arg.2.addr?

/-- The value of a call, the variables behind it, and what it puts out. -/
def evalCall (env : Env V) (c : Call) : Option (V × Env V × List O) :=
  if (env.lookup c.fn).isSome then none
  else do
    let vs ← c.args.mapM fun arg => evalArg H name env arg.2
    let (v, held, os) ← H.fn c.fn vs
    return (v, c.addrs.zip (held.map some) ++ env, os)

/-- The statements of a function: what they return, and what they put out. -/
def exec (env : Env V) : List Stmt → Option (Option V × List O)
  | [] => some (none, [])
  | .decl type x :: ss => exec ((x, H.fresh type) :: env) ss
  | .call c :: ss => do
      let (_, env', os) ← evalCall H name env c
      let (r, os') ← exec env' ss
      return (r, os ++ os')
  | .copy x m y n :: ss => do
      let v ← (valueOf env y).bind (H.member n)
      let u ← (valueOf env x).bind (H.assign m · v)
      exec ((x, some u) :: env) ss
  | .declPtr _ x c :: ss => do
      let (v, env', os) ← evalCall H name ((x, none) :: env) c
      let (r, os') ← exec ((x, some v) :: env') ss
      return (r, os ++ os')
  | .ret c :: _ => do
      let (v, _, os) ← evalCall H name env c
      return (some v, os)

/-- A call of a function of a file with these variables. -/
def Function.run (f : Function) (file : Env V) (args : List V) : Option (Option V × List O) :=
  if args.length = f.params.length then
    exec H f.name ((f.params.map Prod.snd).zip (args.map some) ++ file) f.lines.flatten
  else none

/-! ### Compiling a function -/

/-- The members of the structures. -/
abbrev Members := Ident → Ident → Option CTy

def typeOfArg (scope : Scope) : Arg → Option CTy
  | .var x =>
      match scope.lookup x with
      | some (.var type) => some type
      | _ => none
  | .addr x =>
      match scope.lookup x with
      | some (.var (.named n)) => some (.ptrTo n)
      | _ => none
  | _ => some .charPtr

/-- The type of a call. -/
def typeOfCall (scope : Scope) (c : Call) : Option CTy :=
  match scope.lookup c.fn with
  | some (.func params variadic ret) => do
      let types ← c.args.mapM fun arg => typeOfArg scope arg.2
      if fits params variadic types then some ret else none
  | _ => none

/-- The type of a member of a variable. -/
def typeOfMember (members : Members) (scope : Scope) (x m : Ident) : Option CTy :=
  match scope.lookup x with
  | some (.var (.named n)) => members n m
  | _ => none

/-- The statements of a function that returns `ret`, where `here` are the names declared
in it so far. -/
def check (members : Members) (ret : CTy) (here : List Ident) (scope : Scope) :
    List Stmt → Bool
  | [] => true
  | .decl type x :: ss =>
      (CTy.named type).declarable scope && !here.contains x &&
        check members ret (x :: here) ((x, .var (.named type)) :: scope) ss
  | .call c :: ss => (typeOfCall scope c).isSome && check members ret here scope ss
  | .copy x m y n :: ss =>
      ((typeOfMember members scope x m).bind fun t =>
        (typeOfMember members scope y n).map t.accepts).getD false &&
        check members ret here scope ss
  | .declPtr type x c :: ss =>
      (CTy.ptrTo type).declarable scope && !here.contains x &&
        (typeOfCall ((x, .var (.ptrTo type)) :: scope) c).any (CTy.ptrTo type).accepts &&
        check members ret (x :: here) ((x, .var (.ptrTo type)) :: scope) ss
  | .ret c :: ss => (typeOfCall scope c).any ret.accepts && check members ret here scope ss

/-- The names a function declares as its parameters. -/
def Function.paramScope (f : Function) : Scope := f.params.map fun p => (p.2, .var p.1)

/-- The function compiles in a file with this scope. -/
def Function.check (members : Members) (file : Scope) (f : Function) : Bool :=
  decide (f.params.map Prod.snd).Nodup &&
    CFunction.check members f.ret (f.params.map Prod.snd) (f.paramScope ++ file) f.lines.flatten

/-! ### Rules -/

/-- A function that is called is no parameter and no variable. -/
theorem notMem_of_typeOfCall {inner outer : Scope} {c : Call} {t : CTy}
    (hinner : ∀ d ∈ inner, ∃ type, d.2 = .var type)
    (h : typeOfCall (inner ++ outer) c = some t) : c.fn ∉ inner.map Prod.fst := by
  intro hmem
  obtain ⟨entity, hlookup, type, rfl⟩ :=
    lookup_append_of_mem (P := fun entity => ∃ type, entity = .var type) hinner hmem outer
  rw [typeOfCall, hlookup] at h
  exact absurd h (by simp)

variable {H name}

/-- A call of a function that no variable hides. -/
theorem evalCall_eq {env : Env V} {c : Call} {vs : List V} (hfn : env.lookup c.fn = none)
    (hargs : c.args.mapM (fun arg => evalArg H name env arg.2) = some vs) :
    evalCall H name env c =
      (H.fn c.fn vs).map fun r => (r.1, c.addrs.zip (r.2.1.map some) ++ env, r.2.2) := by
  have hnone : ¬ (env.lookup c.fn).isSome := by rw [hfn]; simp
  rw [evalCall, if_neg hnone, hargs]
  cases hr : H.fn c.fn vs with
  | none => simp [hr]
  | some r => simp [hr]

/-- The parameters of a function hold its arguments, behind variables of other names. -/
theorem forall₂_params {xs : List Ident} {vs : List V} (hlen : xs.length = vs.length)
    (hnodup : xs.Nodup) {inner : Env V} (hinner : ∀ x ∈ xs, x ∉ inner.map Prod.fst)
    (outer : Env V) :
    List.Forall₂ (fun x v => valueOf (inner ++ (xs.zip (vs.map some) ++ outer)) x = some v) xs
      vs := by
  induction xs generalizing vs inner with
  | nil =>
      obtain rfl : vs = [] := List.length_eq_zero_iff.mp hlen.symm
      exact .nil
  | cons x xs ih =>
      cases vs with
      | nil => exact absurd hlen (by simp)
      | cons v vs =>
          obtain ⟨hx, hxs⟩ := List.nodup_cons.mp hnodup
          have hnone : inner.lookup x = none := by
            rw [List.lookup_eq_none_iff]
            intro p hp
            have hne : x ≠ p.1 := fun heq =>
              hinner x (List.mem_cons_self ..) (heq ▸ List.mem_map_of_mem hp)
            exact bne_iff_ne.mpr hne
          have hinner' : ∀ y ∈ xs, y ∉ (inner ++ [(x, some v)]).map Prod.fst := by
            intro y hy
            rw [List.map_append, List.mem_append, not_or]
            refine ⟨hinner y (List.mem_cons_of_mem x hy), ?_⟩
            rw [List.map_singleton, List.mem_singleton]
            rintro rfl
            exact hx hy
          have hrest := ih (by simpa using hlen : xs.length = vs.length) hxs hinner'
          refine .cons ?_ ?_
          · rw [valueOf, List.lookup_append, hnone]
            simp
          · simpa using hrest

/-- Each element has its value, so the list has them. -/
theorem mapM_eq_some {α β : Type} {f : α → Option β} {as : List α} {bs : List β}
    (h : List.Forall₂ (fun a b => f a = some b) as bs) : as.mapM f = some bs := by
  induction h with
  | nil => rfl
  | cons ha _ ih => rw [List.mapM_cons, ha, ih]; rfl

end CFunction

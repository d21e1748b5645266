import RpcBroker.Model.Database
/-!
# RpcBroker.Model.Statements

The **arrays of `reg_svc_req`** (`broker/register_service.c`). A statement for the
database is made in `qry` with `sprintf`, from a template in `tmp`; then `qry` is printed,
as a format, and executed.

`Model.Database` executes the texts as they are meant. Here they are what the arrays hold,
and a write outside an array is recorded. How many characters `qry` has is a parameter;
in the source they are `querySize`.
-/

namespace RpcBroker

open CLib CMemory

/-- `char qry[80]`. -/
def querySize : Nat := 80

/-- `char tmp[500]`. -/
def templateSize : Nat := 500

/-- The arrays. -/
structure Arrays where
  tmp : Block
  qry : Block

/-- The string in `tmp`. -/
def Arrays.template (a : Arrays) : List UInt8 :=
  match a.tmp.string? with
  | some s => s.chars
  | none => []

/-- `sprintf(qry, tmp, ...)`. -/
def Arrays.sprintf (a : Arrays) (args : List Arg) : Arrays :=
  { a with qry := a.qry.write (RpcBroker.sprintf a.template args) }

/-- The arrays when the first text is executed. -/
def registrationArrays (n : Nat) (H : Host) (reg : ServiceReg) : Arrays :=
  Arrays.sprintf ⟨.literal templateSize registrationSql, .fresh n⟩
    [.str (H.printed reg.service_name), .str (H.printed reg.address), .str (H.printed reg.port),
      .int reg.num_services]

/-- The arrays when the text of a service is executed. -/
def serviceArrays (H : Host) (reg : ServiceReg) (a : Arrays) (i : Nat) : Arrays :=
  let a : Arrays := { a with tmp := a.tmp.write serviceSql }
  let a := a.sprintf [.str (H.printed (reg.service i))]
  { a with qry := a.qry.strcat (literals ["\n"]) }

/-- The arrays each time `qry` is executed. -/
def executions (n : Nat) (H : Host) (reg : ServiceReg) : List Arrays :=
  (List.range reg.num_services.toNatClampNeg).scanl (serviceArrays H reg)
    (registrationArrays n H reg)

/-! ### The texts -/

/-- The texts `storeRegistration` prints and executes before it selects. -/
def statements (H : Host) (reg : ServiceReg) : List (List UInt8) :=
  registrationText H reg ::
    (List.range reg.num_services.toNatClampNeg).map (serviceText H reg)

/-- The strings the registration puts into them. -/
def statementStrings (H : Host) (reg : ServiceReg) : List CString :=
  H.printed reg.service_name :: H.printed reg.address :: H.printed reg.port ::
    (List.range reg.num_services.toNatClampNeg).map fun i => H.printed (reg.service i)

end RpcBroker

import RpcBroker.Lib.Printf
import RpcBroker.Lib.SqlText
import RpcBroker.Model.Broker
import RpcBroker.Model.Client
/-!
# RpcBroker.Model.Database

The **database** the broker writes every registration to (the middle of
`reg_svc_req` in `broker/register_service.c`). No other function reads it.

Each statement is a text, made with `sprintf` from a template and the strings of the
registration, then printed, as a format, and then executed. The texts are taken whole:
the 80 bytes of the buffer `qry` are left out. A text that has no defined output as a
format is recorded in `Store.misprinted`.

SQLite is a parameter. What is known of it is what the fragment `RpcBroker.Lib.Sql`
says: a text it gives a meaning to has that meaning, and on any other text nothing
is known.
-/

namespace RpcBroker

open CLib Msgpack Sql

/-! ### Texts -/

/-- `%d`. -/
def decimal (i : Int32) : List UInt8 :=
  let digits := (Nat.toDigits 10 i.toInt.natAbs).map fun c => UInt8.ofNat c.toNat
  if i < 0 then 45 :: digits else digits

/-- `sprintf`, for the conversions `%s` and `%d`. Any other use of `%` has no
defined output; it is left as it stands. -/
def sprintf : List UInt8 → List Arg → List UInt8
  | p :: conv :: fmt, arg :: args =>
      if p ≠ percent then p :: sprintf (conv :: fmt) (arg :: args)
      else match arg with
        | .str s => if conv = convStr then s.chars ++ sprintf fmt args else p :: conv :: fmt
        | .int i => if conv = convInt then decimal i ++ sprintf fmt args else p :: conv :: fmt
  | fmt, _ => fmt

/-- String literals side by side. -/
def literals (parts : List String) : List UInt8 := parts.flatMap fun s => (CString.lit s).chars

/-- The first template, `tmp`. -/
def registrationSql : List UInt8 :=
  literals ["CREATE TABLE IF NOT EXISTS ServiceRegistration (id INTEGER PRIMARY KEY, ",
    "name TEXT, address TEXT, port TEXT, num_services INT);\n",
    "CREATE TABLE IF NOT EXISTS Services (ServiceRegistrationId INTEGER, name TEXT);\n",
    "INSERT INTO ServiceRegistration (name, address, port, num_services) ",
    "VALUES('%s','%s','%s',%d);\n"]

/-- The template of a service, copied over `tmp`. -/
def serviceSql : List UInt8 :=
  literals ["CREATE TEMP TABLE IF NOT EXISTS Variables (Name TEXT PRIMARY KEY, Value INTEGER);\n",
    "INSERT OR REPLACE INTO Variables VALUES('ServiceSergistrationId',",
    "(SELECT MAX(id) FROM ServiceRegistration));\n",
    "INSERT INTO Services (ServiceRegistrationId, name) VALUES((SELECT coalesce(Value, Name) ",
    "FROM Variables WHERE Name = 'ServiceSergistrationId' LIMIT 1),'%s');\n",
    "DROP TABLE Variables;\n"]

def selectSql : List UInt8 := literals ["select * from ServiceRegistration;"]

/-! ### Writing a registration -/

/-- SQLite and the C library, as far as `reg_svc_req` uses them. What `%s` prints
for a pointer to no string stays open. -/
structure Host where
  /-- `sqlite3_exec`: the database afterwards, and whether the code is `SQLITE_OK`. -/
  exec : Db → List UInt8 → Db × Bool
  exec_interp : ∀ {db db' : Db} {text : List UInt8},
    interp db text = some db' → exec db text = (db', true)
  printed : Ptr → CString
  printed_str : ∀ s, printed (.str s) = s

attribute [simp] Host.printed_str

/-- The database, how many errors have been reported, and whether something was printed
that has no defined output. -/
structure Store where
  db : Db
  reported : Nat
  misprinted : Bool

/-- `printf(qry)`. -/
def Store.print (store : Store) (qry : List UInt8) : Store :=
  { store with misprinted := store.misprinted || (CLib.printed qry).isNone }

/-- `report_sqlexec_errors`. -/
def reportSqlexecErrors (rc : Bool) (reported : Nat) : Nat :=
  if rc then reported else reported + 1

/-- Execute a text and report its errors. -/
def Host.run (H : Host) (store : Store) (qry : List UInt8) : Store :=
  { store with
    db := (H.exec store.db qry).1
    reported := reportSqlexecErrors (H.exec store.db qry).2 store.reported }

/-- Print a text and execute it. -/
def Host.printAndRun (H : Host) (store : Store) (qry : List UInt8) : Store :=
  H.run (store.print qry) qry

/-- The text for the registration. -/
def registrationText (H : Host) (reg : ServiceReg) : List UInt8 :=
  sprintf registrationSql [.str (H.printed reg.service_name), .str (H.printed reg.address),
    .str (H.printed reg.port), .int reg.num_services]

/-- The text for a service; `strcat` adds a newline. -/
def serviceText (H : Host) (reg : ServiceReg) (i : Nat) : List UInt8 :=
  sprintf serviceSql [.str (H.printed (reg.service i))] ++ literals ["\n"]

/-- One round of the loop over the services. -/
def storeServiceRow (H : Host) (reg : ServiceReg) (store : Store) (i : Nat) : Store :=
  H.printAndRun store (serviceText H reg i)

/-- `reg_svc_req` between `LIST_Add` and `send_svc_req_ack`. -/
def storeRegistration (H : Host) (store : Store) (reg : ServiceReg) : Store :=
  let store := H.printAndRun store (registrationText H reg)
  let store := (List.range reg.num_services.toNatClampNeg).foldl (storeServiceRow H reg) store
  H.run store selectSql

/-! ### The handler -/

variable (E : Libs)

/-- `reg_svc_req` with its database. -/
def regSvcReqStored (H : Host) (packet : E.Buffer) (config : Config) (store : Store) :
    Except Exit ((Config × Store) × Sent E.Buffer) := do
  let scan ← unpackServiceRegistrationBuffer E packet
  let config := { config with svc_repo := config.svc_repo ++ [scan.reg] }
  let store := storeRegistration H store scan.reg
  let ack ← sendSvcReqAck E packet
  return ((config, store), ack)

/-- `read_data` with the database. -/
def readDataStored (H : Host) (state : Config × Store) (packet : E.Buffer) :
    Except Exit ((Config × Store) × List (Sent E.Buffer)) := do
  let req_type ← getReqType E packet
  if req_type = RequestType.serviceRegistration.code then
    let (state, ack) ← regSvcReqStored E H packet state.1 state.2
    return (state, [ack])
  else
    let (config, sents) ← readData E state.1 packet
    return ((config, state.2), sents)

end RpcBroker

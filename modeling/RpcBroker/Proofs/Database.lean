import RpcBroker.Model.Database
import RpcBroker.Proofs.Decoders
import RpcBroker.Proofs.Handler
import RpcBroker.Proofs.Messages
/-!
# RpcBroker.Proofs.Database

**The database mirrors the registry** as long as no string of a registration has a
quote in it.

The strings go between quotes in the texts `reg_svc_req` executes. Where each of them
is a literal there, for whatever bytes (`Literals`), the texts read as the scripts
they are meant to be (`registrationScript`, `serviceScript`), and these add one row
for the registration and one for each of its services, with the new id
(`storeRegistration_eq`). A string without quotes is a literal for itself. With two
quotes side by side it is a literal for another string, and with any other quote the
text is no such script at all.
-/

namespace RpcBroker

open CLib Msgpack Sql

/-! ### The names in the texts -/

def registrationTable : Name := (CString.lit "serviceregistration").chars

def servicesTable : Name := (CString.lit "services").chars

def variablesTable : Name := (CString.lit "variables").chars

def idColumn : Name := (CString.lit "id").chars

def nameColumn : Name := (CString.lit "name").chars

def valueColumn : Name := (CString.lit "value").chars

def linkColumn : Name := (CString.lit "serviceregistrationid").chars

def addressColumn : Name := (CString.lit "address").chars

def portColumn : Name := (CString.lit "port").chars

def countColumn : Name := (CString.lit "num_services").chars

def registrationColumns : List Column :=
  [⟨idColumn, .integer, true⟩, ⟨nameColumn, .text, false⟩, ⟨addressColumn, .text, false⟩,
    ⟨portColumn, .text, false⟩, ⟨countColumn, .int, false⟩]

def servicesColumns : List Column := [⟨linkColumn, .integer, false⟩, ⟨nameColumn, .text, false⟩]

def variablesColumns : List Column := [⟨nameColumn, .text, true⟩, ⟨valueColumn, .integer, false⟩]

/-- The name of the variable, as it is spelt. -/
def linkVariable : List UInt8 := (CString.lit "ServiceSergistrationId").chars

/-! ### The scripts -/

/-- What the first text says. -/
def registrationScript (name address port : List UInt8) (count : Int) : List Stmt :=
  [.create .main registrationTable registrationColumns,
    .create .main servicesTable servicesColumns,
    .insert registrationTable [nameColumn, addressColumn, portColumn, countColumn]
      [.str name, .str address, .str port, .int count]]

/-- What the text of a service says. -/
def serviceScript (name : List UInt8) : List Stmt :=
  [.create .temp variablesTable variablesColumns,
    .replace variablesTable [.str linkVariable, .query ⟨.max idColumn, registrationTable, none⟩],
    .insert servicesTable [linkColumn, nameColumn]
      [.query ⟨.coalesce valueColumn nameColumn, variablesTable, some (nameColumn, linkVariable)⟩,
        .str name],
    .drop variablesTable]

/-- The tokens of the first text, up to its first string. -/
def registrationHead : List Sql.Token :=
  keywordsOf [.create, .table, .if, .not, .exists] ++
    [.ident registrationTable, .lpar, .ident idColumn, .keyword .integer, .keyword .primary,
      .keyword .key, .comma, .ident nameColumn, .keyword .text, .comma, .ident addressColumn,
      .keyword .text, .comma, .ident portColumn, .keyword .text, .comma, .ident countColumn,
      .keyword .int, .rpar, .semi] ++
    keywordsOf [.create, .table, .if, .not, .exists] ++
    [.ident servicesTable, .lpar, .ident linkColumn, .keyword .integer, .comma, .ident nameColumn,
      .keyword .text, .rpar, .semi, .keyword .insert, .keyword .into, .ident registrationTable,
      .lpar, .ident nameColumn, .comma, .ident addressColumn, .comma, .ident portColumn, .comma,
      .ident countColumn, .rpar, .keyword .values, .lpar]

/-- The tokens of a number. -/
def intTokens (n : Int) : List Sql.Token :=
  if n < 0 then [.minus, .int n.natAbs] else [.int n.natAbs]

def registrationTokens (name address port : List UInt8) (count : Int) : List Sql.Token :=
  registrationHead ++ ([.str name, .comma] ++ ([.str address, .comma] ++ ([.str port, .comma] ++
    (intTokens count ++ [.rpar, .semi]))))

/-- The tokens of the text of a service, up to its name. -/
def serviceHead : List Sql.Token :=
  keywordsOf [.create, .temp, .table, .if, .not, .exists] ++
    [.ident variablesTable, .lpar, .ident nameColumn, .keyword .text, .keyword .primary,
      .keyword .key, .comma, .ident valueColumn, .keyword .integer, .rpar, .semi] ++
    keywordsOf [.insert, .or, .replace, .into] ++
    [.ident variablesTable, .keyword .values, .lpar, .str linkVariable, .comma, .lpar,
      .keyword .select, .keyword .max, .lpar, .ident idColumn, .rpar, .keyword .from,
      .ident registrationTable, .rpar, .rpar, .semi, .keyword .insert, .keyword .into,
      .ident servicesTable, .lpar, .ident linkColumn, .comma, .ident nameColumn, .rpar,
      .keyword .values, .lpar, .lpar, .keyword .select, .keyword .coalesce, .lpar,
      .ident valueColumn, .comma, .ident nameColumn, .rpar, .keyword .from, .ident variablesTable,
      .keyword .where, .ident nameColumn, .eq, .str linkVariable, .keyword .limit, .int 1, .rpar,
      .comma]

def serviceTokens (name : List UInt8) : List Sql.Token :=
  serviceHead ++ [.str name, .rpar, .semi, .keyword .drop, .keyword .table, .ident variablesTable,
    .semi]

theorem script_registration (name address port : List UInt8) (count : Int) :
    script (registrationTokens name address port count).length
      (registrationTokens name address port count) =
      some (registrationScript name address port count) := by
  unfold registrationTokens intTokens
  by_cases h : count < 0
  · rw [if_pos h]
    obtain ⟨n, rfl⟩ : ∃ n : Nat, count = -n := ⟨count.natAbs, by omega⟩
    rw [Int.natAbs_neg, Int.natAbs_natCast]
    rfl
  · rw [if_neg h]
    obtain ⟨n, rfl⟩ : ∃ n : Nat, count = n := ⟨count.natAbs, by omega⟩
    rw [Int.natAbs_natCast]
    rfl

theorem script_service (name : List UInt8) :
    script (serviceTokens name).length (serviceTokens name) = some (serviceScript name) := rfl

/-! ### Formatting -/

theorem sprintf_nil (fmt : List UInt8) : sprintf fmt [] = fmt := by
  cases fmt with
  | nil => rfl
  | cons p fmt => cases fmt <;> rfl

theorem sprintf_char {p : UInt8} (hp : p ≠ percent) (fmt : List UInt8) (args : List Arg) :
    sprintf (p :: fmt) args = p :: sprintf fmt args := by
  cases args with
  | nil => rw [sprintf_nil, sprintf_nil]
  | cons arg args =>
      cases fmt with
      | nil => rfl
      | cons conv fmt => exact if_pos hp

/-- What holds no conversion is copied. -/
theorem sprintf_append {text : List UInt8} (h : percent ∉ text) (fmt : List UInt8)
    (args : List Arg) : sprintf (text ++ fmt) args = text ++ sprintf fmt args := by
  induction text with
  | nil => rfl
  | cons p text ih =>
      have hp : p ≠ percent := fun heq => h (heq ▸ List.mem_cons_self ..)
      rw [List.cons_append, sprintf_char hp, ih (fun hmem => h (List.mem_cons_of_mem _ hmem))]
      rfl

theorem sprintf_before (fmt : List UInt8) (args : List Arg) :
    sprintf fmt args =
      fmt.takeWhile (· ≠ percent) ++ sprintf (fmt.dropWhile (· ≠ percent)) args := by
  have hnone : percent ∉ fmt.takeWhile (· ≠ percent) := by
    intro hmem
    exact absurd (List.mem_takeWhile_imp hmem) (by simp)
  rw [← sprintf_append hnone, List.takeWhile_append_dropWhile]

theorem sprintf_str (fmt : List UInt8) (s : CString) (args : List Arg) :
    sprintf (percent :: convStr :: fmt) (.str s :: args) = s.chars ++ sprintf fmt args := rfl

theorem sprintf_int (fmt : List UInt8) (i : Int32) (args : List Arg) :
    sprintf (percent :: convInt :: fmt) (.int i :: args) = decimal i ++ sprintf fmt args := rfl

/-- The first template: its tokens up to the first string, and what follows them. -/
theorem registrationSql_split :
    Mode.start.run (registrationSql.takeWhile (· ≠ percent)) = (.str [], registrationHead) ∧
      registrationSql.dropWhile (· ≠ percent) =
        percent :: convStr :: ([quote, 44, quote] ++ percent :: convStr ::
          ([quote, 44, quote] ++ percent :: convStr :: ([quote, 44] ++ percent :: convInt ::
            [41, 59, 10]))) := by
  decide +kernel

theorem sprintf_registrationSql (name address port : CString) (count : Int32) :
    sprintf registrationSql [.str name, .str address, .str port, .int count] =
      registrationSql.takeWhile (· ≠ percent) ++ (name.chars ++ ([quote, 44, quote] ++
        (address.chars ++ ([quote, 44, quote] ++ (port.chars ++ ([quote, 44] ++
          (decimal count ++ [41, 59, 10]))))))) := by
  rw [sprintf_before, registrationSql_split.2, sprintf_str, sprintf_append (by decide),
    sprintf_str, sprintf_append (by decide), sprintf_str, sprintf_append (by decide), sprintf_int,
    sprintf_nil]

/-- The template of a service, in the same way. -/
theorem serviceSql_split :
    Mode.start.run (serviceSql.takeWhile (· ≠ percent)) = (.str [], serviceHead) ∧
      serviceSql.dropWhile (· ≠ percent) =
        percent :: convStr :: quote :: 41 :: literals [";\nDROP TABLE Variables;\n"] := by
  decide +kernel

theorem sprintf_serviceSql (name : CString) :
    sprintf serviceSql [.str name] ++ literals ["\n"] =
      serviceSql.takeWhile (· ≠ percent) ++ (name.chars ++ quote :: 41 ::
        literals [";\nDROP TABLE Variables;\n\n"]) := by
  have hlast : literals [";\nDROP TABLE Variables;\n"] ++ literals ["\n"] =
      literals [";\nDROP TABLE Variables;\n\n"] := by decide +kernel
  rw [sprintf_before, serviceSql_split.2, sprintf_str, sprintf_nil, ← hlast]
  simp only [List.append_assoc, List.cons_append]

/-- A digit, as a byte. -/
theorem toNat_digit {d : Char} (h : d.isDigit = true) : (UInt8.ofNat d.toNat).toNat = d.toNat := by
  have hbounds := Char.isDigit_iff_toNat.mp h
  have hnine : '9'.toNat = 57 := rfl
  rw [UInt8.toNat_ofNat']
  omega

theorem isDigit_digits {n : Nat} {c : UInt8}
    (h : c ∈ (Nat.toDigits 10 n).map fun d => UInt8.ofNat d.toNat) : isDigit c = true := by
  obtain ⟨d, hd, rfl⟩ := List.mem_map.mp h
  have hdigit : d.isDigit = true := Nat.isDigit_of_mem_toDigits (by decide) (by decide) hd
  have hbounds := Char.isDigit_iff_toNat.mp hdigit
  have hzero : '0'.toNat = 48 := rfl
  have hnine : '9'.toNat = 57 := rfl
  simp only [isDigit, Bool.and_eq_true, decide_eq_true_eq, UInt8.le_iff_toNat_le,
    toNat_digit hdigit]
  exact ⟨show 48 ≤ d.toNat by omega, show d.toNat ≤ 57 by omega⟩

/-- The digits of a number spell it. -/
theorem number_digits (n : Nat) :
    number ((Nat.toDigits 10 n).map fun d => UInt8.ofNat d.toNat) = n := by
  have hfold : ∀ (ds : List Char) (acc : Nat), (∀ d ∈ ds, d.isDigit = true) →
      (ds.map fun d => UInt8.ofNat d.toNat).foldl (fun n c => 10 * n + (c.toNat - 48)) acc =
        Nat.ofDigitChars 10 ds acc := by
    intro ds
    induction ds with
    | nil => exact fun _ _ => rfl
    | cons d ds ih =>
        intro acc h
        rw [List.map_cons, List.foldl_cons, Nat.ofDigitChars_cons, toNat_digit (h d (by simp)),
          ih _ fun d hd => h d (List.mem_cons_of_mem _ hd)]
        rfl
  rw [number, hfold _ _ fun d hd => Nat.isDigit_of_mem_toDigits (by decide) (by decide) hd,
    Nat.ofDigitChars_ten_toDigits]

/-- A formatted number is lexed as itself. -/
theorem run_decimal (i : Int32) {c : UInt8} (hword : isWord c = false) (hquote : c ≠ quote)
    (more : List UInt8) :
    Mode.start.run (decimal i ++ c :: more) =
      ((Mode.start.run (c :: more)).1, intTokens i.toInt ++ (Mode.start.run (c :: more)).2) := by
  have hlo := i.le_toInt
  have hhi := i.toInt_lt
  have hne : (Nat.toDigits 10 i.toInt.natAbs).map (fun d => UInt8.ofNat d.toNat) ≠ [] := by
    simp [Nat.toDigits_ne_nil]
  have hrun := run_number (fun c hc => isDigit_digits hc) hne
    (by rw [number_digits]; omega) hword hquote more
  rw [number_digits] at hrun
  have hneg : i < 0 ↔ i.toInt < 0 := by
    rw [Int32.lt_iff_toInt_lt]
    rfl
  unfold decimal intTokens
  by_cases h : i < 0
  · rw [if_pos h, if_pos (hneg.mp h)]
    obtain ⟨d, ds, hds⟩ := List.exists_cons_of_ne_nil hne
    have hd : d ≠ 45 := by
      rintro rfl
      have hdigit : isDigit 45 = true := isDigit_digits (hds ▸ List.mem_cons_self ..)
      exact absurd hdigit (by decide)
    rw [hds, List.cons_append] at hrun
    rw [hds, List.cons_append, List.cons_append, run_minus hd, hrun]
    rfl
  · rw [if_neg h, if_neg (fun hlt => h (hneg.mpr hlt)), hrun]
    rfl

/-! ### The texts, read -/

/-- A literal, a comma and the quote of the next literal. -/
theorem run_literalComma {text bytes : List UInt8} (h : Literal text bytes) (more : List UInt8) :
    (Mode.str []).run (text ++ ([quote, 44, quote] ++ more)) =
      (((Mode.str []).run more).1, [.str bytes, .comma] ++ ((Mode.str []).run more).2) :=
  h.run (by decide) (quote :: more)

theorem run_registrationSql {name address port : CString} {name' address' port' : List UInt8}
    (hname : Literal name.chars name') (haddress : Literal address.chars address')
    (hport : Literal port.chars port') (count : Int32) :
    Mode.start.run (sprintf registrationSql [.str name, .str address, .str port, .int count]) =
      (.start, registrationTokens name' address' port' count.toInt) := by
  have hcount : Mode.start.run (decimal count ++ [41, 59, 10]) =
      (.start, intTokens count.toInt ++ [.rpar, .semi]) :=
    run_decimal count (by decide) (by decide) [59, 10]
  have hcomma : Mode.start.run (44 :: (decimal count ++ [41, 59, 10])) =
      (.start, .comma :: (intTokens count.toInt ++ [.rpar, .semi])) := by
    have hstep : Mode.start.step 44 = (.start, [.comma]) := rfl
    rw [Mode.run, hstep, hcount]
    rfl
  have hlast : (Mode.str []).run (port.chars ++ ([quote, 44] ++ (decimal count ++ [41, 59, 10]))) =
      (.start, [.str port', .comma] ++ (intTokens count.toInt ++ [.rpar, .semi])) := by
    refine (hport.run (by decide) (decimal count ++ [41, 59, 10])).trans ?_
    rw [hcomma]
    rfl
  rw [sprintf_registrationSql, run_append, registrationSql_split.1, run_literalComma hname,
    run_literalComma haddress, hlast]
  rfl

theorem run_serviceSql {name : CString} {name' : List UInt8} (hname : Literal name.chars name') :
    Mode.start.run (sprintf serviceSql [.str name] ++ literals ["\n"]) =
      (.start, serviceTokens name') := by
  have htail : Mode.start.run (41 :: literals [";\nDROP TABLE Variables;\n\n"]) =
      (.start, [.rpar, .semi, .keyword .drop, .keyword .table, .ident variablesTable, .semi]) := by
    decide +kernel
  rw [sprintf_serviceSql, run_append, serviceSql_split.1, hname.run (by decide), htail]
  rfl

/-! ### The statements, executed -/

/-- A row of `ServiceRegistration`. -/
def registrationRow (id : Int) (name address port : List UInt8) (count : Int) : Row :=
  [.int id, .text name, .text address, .text port, .int count]

/-- A row of `Services`. -/
def serviceRow (id : Int) (name : List UInt8) : Row := [.int id, .text name]

/-- The tables are as the broker makes them, if they exist, and nothing temporary has
their names; `ids` are the ids of the registrations. -/
structure Ready (db : Db) (ids : List Int) : Prop where
  registrations : ∀ t, db.table .main registrationTable = some t → t.columns = registrationColumns
  services : ∀ t, db.table .main servicesTable = some t → t.columns = servicesColumns
  registrations_temp : db.table .temp registrationTable = none
  services_temp : db.table .temp servicesTable = none
  variables_temp : db.table .temp variablesTable = none
  ids : intsAt 0 (db.rows registrationTable) = some ids

/-- The tables exist, with these rows, and the variable is in this table. -/
structure Stored (db : Db) (registrations services : List Row) (var : Option Table) : Prop where
  registrations : db.table .main registrationTable = some ⟨registrationColumns, registrations⟩
  services : db.table .main servicesTable = some ⟨servicesColumns, services⟩
  registrations_temp : db.table .temp registrationTable = none
  services_temp : db.table .temp servicesTable = none
  variables_temp : db.table .temp variablesTable = var

/-- A table that is none of these. -/
structure Other (s : Schema) (n : Name) : Prop where
  registrations : s ≠ .main ∨ n ≠ registrationTable
  services : s ≠ .main ∨ n ≠ servicesTable
  variables_temp : s ≠ .temp ∨ n ≠ variablesTable

/-- All other tables are the same. -/
def SameElse (db db' : Db) : Prop := ∀ s n, Other s n → db'.table s n = db.table s n

theorem SameElse.trans {db db' db'' : Db} (h : SameElse db db') (h' : SameElse db' db'') :
    SameElse db db'' := fun s n hn => (h' s n hn).trans (h s n hn)

section Stored

variable {db : Db} {registrations services : List Row} {var : Option Table}

theorem Stored.find?_registrations (h : Stored db registrations services var) :
    db.find? registrationTable = some (.main, ⟨registrationColumns, registrations⟩) :=
  Db.find?_main h.registrations_temp h.registrations

theorem Stored.find?_services (h : Stored db registrations services var) :
    db.find? servicesTable = some (.main, ⟨servicesColumns, services⟩) :=
  Db.find?_main h.services_temp h.services

theorem Stored.set_registrations (h : Stored db registrations services var) (rows : List Row) :
    Stored (db.set .main registrationTable (some ⟨registrationColumns, rows⟩)) rows services var ∧
      SameElse db (db.set .main registrationTable (some ⟨registrationColumns, rows⟩)) := by
  refine ⟨⟨Db.table_set_self .., ?_, ?_, ?_, ?_⟩, fun s n hn =>
    Db.table_set_other hn.registrations db _⟩
  · rw [Db.table_set_other (Or.inr (by decide)), h.services]
  · rw [Db.table_set_other (Or.inl (by decide)), h.registrations_temp]
  · rw [Db.table_set_other (Or.inl (by decide)), h.services_temp]
  · rw [Db.table_set_other (Or.inl (by decide)), h.variables_temp]

theorem Stored.set_services (h : Stored db registrations services var) (rows : List Row) :
    Stored (db.set .main servicesTable (some ⟨servicesColumns, rows⟩)) registrations rows var ∧
      SameElse db (db.set .main servicesTable (some ⟨servicesColumns, rows⟩)) := by
  refine ⟨⟨?_, Db.table_set_self .., ?_, ?_, ?_⟩, fun s n hn =>
    Db.table_set_other hn.services db _⟩
  · rw [Db.table_set_other (Or.inr (by decide)), h.registrations]
  · rw [Db.table_set_other (Or.inl (by decide)), h.registrations_temp]
  · rw [Db.table_set_other (Or.inl (by decide)), h.services_temp]
  · rw [Db.table_set_other (Or.inl (by decide)), h.variables_temp]

theorem Stored.set_variables (h : Stored db registrations services var) (var' : Option Table) :
    Stored (db.set .temp variablesTable var') registrations services var' ∧
      SameElse db (db.set .temp variablesTable var') := by
  refine ⟨⟨?_, ?_, ?_, ?_, Db.table_set_self ..⟩, fun s n hn =>
    Db.table_set_other hn.variables_temp db _⟩
  · rw [Db.table_set_other (Or.inl (by decide)), h.registrations]
  · rw [Db.table_set_other (Or.inl (by decide)), h.services]
  · rw [Db.table_set_other (Or.inr (by decide)), h.registrations_temp]
  · rw [Db.table_set_other (Or.inr (by decide)), h.services_temp]

end Stored

/-- The two tables after they have been created, if they were not there. -/
theorem exec_creates {db : Db} {ids : List Int} (h : Ready db ids) (stmts : List Stmt) :
    ∃ db', execAll db (.create .main registrationTable registrationColumns ::
        .create .main servicesTable servicesColumns :: stmts) = execAll db' stmts ∧
      Stored db' (db.rows registrationTable) (db.rows servicesTable) none ∧ SameElse db db' := by
  have hcreatable : Creatable registrationTable registrationColumns ∧
      Creatable servicesTable servicesColumns := by decide +kernel
  obtain ⟨db₁, hexec₁, htable₁, hother₁⟩ := exec_create_main hcreatable.1 h.registrations
  have hservices₁ : db₁.table .main servicesTable = db.table .main servicesTable :=
    hother₁ _ _ (Or.inr (by decide))
  obtain ⟨db₂, hexec₂, htable₂, hother₂⟩ :=
    exec_create_main hcreatable.2 fun t ht => h.services t (hservices₁ ▸ ht)
  have hrows : db₁.rows servicesTable = db.rows servicesTable := by
    rw [Db.rows, Db.rows, hservices₁]
  have htemp : ∀ n, db₂.table .temp n = db.table .temp n := by
    intro n
    rw [hother₂ _ _ (Or.inl (by decide)), hother₁ _ _ (Or.inl (by decide))]
  refine ⟨db₂, by rw [execAll_cons hexec₁, execAll_cons hexec₂], ⟨?_, ?_, ?_, ?_, ?_⟩, ?_⟩
  · rw [hother₂ _ _ (Or.inr (by decide)), htable₁]
  · rw [htable₂, hrows]
  · rw [htemp, h.registrations_temp]
  · rw [htemp, h.services_temp]
  · rw [htemp, h.variables_temp]
  · intro s n hn
    rw [hother₂ _ _ hn.services, hother₁ _ _ hn.registrations]

theorem insert_registration {rows : List Row} {ids : List Int} (h : intsAt 0 rows = some ids)
    (name address port : List UInt8) (count : Int) :
    Table.insert ⟨registrationColumns, rows⟩ [nameColumn, addressColumn, portColumn, countColumn]
        [.text name, .text address, .text port, .int count] =
      some ⟨registrationColumns,
        rows ++ [registrationRow (nextAfter ids) name address port count]⟩ := by
  have hnext : Table.nextId ⟨registrationColumns, rows⟩ = some (nextAfter ids) := by
    have hindex : registrationColumns.findIdx? Column.isRowId = some 0 := by decide
    simp only [Table.nextId, hindex, h, bind, Option.bind, pure]
  have hfill : Table.fill ⟨registrationColumns, rows⟩
      ([nameColumn, addressColumn, portColumn, countColumn].zip
        [.text name, .text address, .text port, .int count]) =
      some (registrationRow (nextAfter ids) name address port count) := by
    have hid : Table.cell ⟨registrationColumns, rows⟩
        ([nameColumn, addressColumn, portColumn, countColumn].zip
          [.text name, .text address, .text port, .int count]) ⟨idColumn, .integer, true⟩ =
        some (.int (nextAfter ids)) := by
      show (Table.nextId ⟨registrationColumns, rows⟩).map Value.int = _
      rw [hnext]
      rfl
    rw [Table.fill, registrationColumns, List.mapM_cons]
    rw [registrationColumns] at hid
    rw [hid]
    rfl
  have hknown : ∀ n ∈ [nameColumn, addressColumn, portColumn, countColumn],
      n ∈ registrationColumns.map Column.name := by decide
  have hkey : ∀ c ∈ registrationColumns, c.primaryKey = true → c.isRowId = true := by decide
  rw [Table.insert, if_pos ⟨by decide, rfl, hknown, hkey⟩, hfill]
  rfl

/-- **The first text adds one row** of registrations. -/
theorem exec_registrationScript {db : Db} {ids : List Int} (h : Ready db ids)
    (name address port : List UInt8) (count : Int) :
    ∃ db', execAll db (registrationScript name address port count) = some db' ∧
      Stored db'
        (db.rows registrationTable ++ [registrationRow (nextAfter ids) name address port count])
        (db.rows servicesTable) none ∧
      SameElse db db' := by
  obtain ⟨db₁, hexec, hstored, hsame⟩ := exec_creates h
    [.insert registrationTable [nameColumn, addressColumn, portColumn, countColumn]
      [.str name, .str address, .str port, .int count]]
  have hvalues : [Expr.str name, .str address, .str port, .int count].mapM (Expr.eval db₁) =
      some [.text name, .text address, .text port, .int count] := rfl
  have hinsert := exec_insert hstored.find?_registrations hvalues
    (insert_registration h.ids name address port count)
  obtain ⟨hstored', hsame'⟩ := hstored.set_registrations
    (db.rows registrationTable ++ [registrationRow (nextAfter ids) name address port count])
  exact ⟨_, by rw [registrationScript, hexec, execAll_cons hinsert, execAll_nil], hstored',
    hsame.trans hsame'⟩

theorem insert_service (rows : List Row) (id : Int) (name : List UInt8) :
    Table.insert ⟨servicesColumns, rows⟩ [linkColumn, nameColumn] [.int id, .text name] =
      some ⟨servicesColumns, rows ++ [serviceRow id name]⟩ := by
  have hfill : Table.fill ⟨servicesColumns, rows⟩
      ([linkColumn, nameColumn].zip [.int id, .text name]) = some (serviceRow id name) := rfl
  have hknown : ∀ n ∈ [linkColumn, nameColumn], n ∈ servicesColumns.map Column.name := by decide
  have hkey : ∀ c ∈ servicesColumns, c.primaryKey = true → c.isRowId = true := by decide
  rw [Table.insert, if_pos ⟨by decide, rfl, hknown, hkey⟩, hfill]
  rfl

/-- The table of the variable, while it is there. -/
def variableTable (rows : List Row) : Table := ⟨variablesColumns, rows⟩

theorem replace_variable (id : Int) :
    (variableTable []).replace [.text linkVariable, .int id] =
      some (variableTable [[.text linkVariable, .int id]]) := rfl

/-- The largest id of the registrations. -/
theorem eval_max {db : Db} {registrations : List Row} {ids : List Int} {id : Int}
    (hfind : db.find? registrationTable = some (.main, ⟨registrationColumns, registrations⟩))
    (hids : intsAt 0 registrations = some ids) (hmax : ids.max? = some id) :
    Expr.eval db (.query ⟨.max idColumn, registrationTable, none⟩) = some (.int id) := by
  have hindex : Table.index ⟨registrationColumns, registrations⟩ idColumn = some 0 := rfl
  simp only [Expr.eval, Query.eval, Query.rows, hfind, hindex, hids, hmax, bind, Option.bind, pure]

/-- The value of the variable. -/
theorem eval_variable {db : Db} {id : Int}
    (hfind : db.find? variablesTable =
      some (.temp, variableTable [[.text linkVariable, .int id]])) :
    Expr.eval db (.query ⟨.coalesce valueColumn nameColumn, variablesTable,
      some (nameColumn, linkVariable)⟩) = some (.int id) := by
  simp only [Expr.eval, Query.eval, hfind, bind, Option.bind]
  rfl

/-- **The text of a service adds one row** of services, with the largest id. -/
theorem exec_serviceScript {db : Db} {registrations services : List Row}
    (h : Stored db registrations services none) {ids : List Int} {id : Int}
    (hids : intsAt 0 registrations = some ids) (hmax : ids.max? = some id) (name : List UInt8) :
    ∃ db', execAll db (serviceScript name) = some db' ∧
      Stored db' registrations (services ++ [serviceRow id name]) none ∧ SameElse db db' := by
  have hcreatable : Creatable variablesTable variablesColumns := by decide +kernel
  -- The variable is created and gets the largest id ...
  have hcreate : Stmt.exec db (.create .temp variablesTable variablesColumns) =
      some (db.set .temp variablesTable (some (variableTable []))) := by
    rw [exec_create hcreatable, h.variables_temp]
    rfl
  obtain ⟨h₁, hsame₁⟩ := h.set_variables (some (variableTable []))
  generalize db.set .temp variablesTable (some (variableTable [])) = db₁ at hcreate h₁ hsame₁
  have hvalues₁ : [Expr.str linkVariable,
      .query ⟨.max idColumn, registrationTable, none⟩].mapM (Expr.eval db₁) =
      some [.text linkVariable, .int id] := by
    rw [List.mapM_cons, List.mapM_cons, eval_max h₁.find?_registrations hids hmax]
    rfl
  have hreplace := exec_replace (Db.find?_temp h₁.variables_temp) hvalues₁ (replace_variable id)
  obtain ⟨h₂, hsame₂⟩ := h₁.set_variables (some (variableTable [[.text linkVariable, .int id]]))
  generalize db₁.set .temp variablesTable _ = db₂ at hreplace h₂ hsame₂
  -- ... is the link of the row that is added ...
  have hvalues₂ : [Expr.query ⟨.coalesce valueColumn nameColumn, variablesTable,
      some (nameColumn, linkVariable)⟩, .str name].mapM (Expr.eval db₂) =
      some [.int id, .text name] := by
    rw [List.mapM_cons, eval_variable (Db.find?_temp h₂.variables_temp)]
    rfl
  have hinsert := exec_insert h₂.find?_services hvalues₂ (insert_service services id name)
  obtain ⟨h₃, hsame₃⟩ := h₂.set_services (services ++ [serviceRow id name])
  generalize db₂.set .main servicesTable _ = db₃ at hinsert h₃ hsame₃
  -- ... and goes.
  have hdrop := exec_drop (Db.find?_temp h₃.variables_temp)
  obtain ⟨h₄, hsame₄⟩ := h₃.set_variables none
  refine ⟨_, ?_, h₄, ((hsame₁.trans hsame₂).trans hsame₃).trans hsame₄⟩
  rw [serviceScript, execAll_cons hcreate, execAll_cons hreplace, execAll_cons hinsert,
    execAll_cons hdrop, execAll_nil]

/-! ### One registration -/

/-- The bytes of a string. -/
def textOf (p : Ptr) : List UInt8 :=
  match p with
  | .str s => s.chars
  | _ => []

/-- The pointers `reg_svc_req` prints. -/
def printedPtrs (reg : ServiceReg) : List Ptr :=
  [reg.service_name, reg.address, reg.port] ++
    (List.range reg.num_services.toNatClampNeg).map reg.service

/-- Every one of them points at a string. -/
def HasStrings (reg : ServiceReg) : Prop := ∀ p ∈ printedPtrs reg, ∃ s, p = .str s

theorem hasStrings_of_eq {reg : ServiceReg} {ss : List CString}
    (h : printedPtrs reg = ss.map .str) : HasStrings reg := by
  intro p hp
  rw [h] at hp
  obtain ⟨s, -, rfl⟩ := List.mem_map.mp hp
  exact ⟨s, rfl⟩

/-- No string of the registration has a quote in it. -/
def Unquoted (reg : ServiceReg) : Prop := ∀ p ∈ printedPtrs reg, quote ∉ textOf p

/-- The row of a registration, with what the strings are in it. -/
def rowOf (text : Ptr → List UInt8) (id : Int) (reg : ServiceReg) : Row :=
  registrationRow id (text reg.service_name) (text reg.address) (text reg.port)
    reg.num_services.toInt

/-- The rows of its services. -/
def serviceRowsOf (text : Ptr → List UInt8) (id : Int) (reg : ServiceReg) : List Row :=
  (List.range reg.num_services.toNatClampNeg).map fun i => serviceRow id (text (reg.service i))

variable {H : Host}

theorem Host.run_eq {store : Store} {qry : List UInt8} {db' : Db}
    (h : interp store.db qry = some db') : H.run store qry = { store with db := db' } := by
  rw [Host.run, H.exec_interp h]
  rfl

/-- `store'` comes of `store` with these rows in the tables, and without an error. -/
structure Adds (store store' : Store) (registrations services : List Row) : Prop where
  reported : store'.reported = store.reported
  stored : Stored store'.db registrations services none
  others : SameElse store.db store'.db

theorem Adds.trans {store store' store'' : Store}
    {registrations services registrations' services' : List Row}
    (h : Adds store store' registrations services)
    (h' : Adds store' store'' registrations' services') :
    Adds store store'' registrations' services' :=
  ⟨h'.reported.trans h.reported, h'.stored, h.others.trans h'.others⟩

/-- The strings are literals for these bytes. -/
def Literals (H : Host) (text : Ptr → List UInt8) (reg : ServiceReg) : Prop :=
  ∀ p ∈ printedPtrs reg, Literal (H.printed p).chars (text p)

/-- Strings without quotes are literals for themselves. -/
theorem literals_unquoted {reg : ServiceReg} (hstrings : HasStrings reg)
    (hquotes : Unquoted reg) : Literals H textOf reg := by
  intro p hp
  obtain ⟨s, rfl⟩ := hstrings p hp
  rw [H.printed_str]
  exact literal_unquoted (hquotes _ hp) s.nulFree

theorem storeServiceRow_adds {text : Ptr → List UInt8} {reg : ServiceReg}
    (htext : Literals H text reg) (store : Store) {registrations services : List Row}
    (h : Stored store.db registrations services none) {ids : List Int} {id : Int}
    (hids : intsAt 0 registrations = some ids) (hmax : ids.max? = some id) {i : Nat}
    (hi : i < reg.num_services.toNatClampNeg) :
    Adds store (storeServiceRow H reg store i) registrations
      (services ++ [serviceRow id (text (reg.service i))]) := by
  have hmem : reg.service i ∈ printedPtrs reg :=
    List.mem_append_right _ (List.mem_map_of_mem (List.mem_range.mpr hi))
  obtain ⟨db', hexec, hstored, hsame⟩ := exec_serviceScript h hids hmax (text (reg.service i))
  have hinterp := (interp_eq (run_serviceSql (htext _ hmem)) (script_service _) store.db).trans hexec
  have hrun : storeServiceRow H reg store i =
      { store.print (serviceText H reg i) with db := db' } := Host.run_eq hinterp
  rw [hrun]
  exact ⟨rfl, hstored, hsame⟩

/-- The loop adds the rows of the services, in order. -/
theorem storeServiceRows_adds {text : Ptr → List UInt8} {reg : ServiceReg}
    (htext : Literals H text reg) (store : Store) {registrations services : List Row}
    (h : Stored store.db registrations services none) {ids : List Int} {id : Int}
    (hids : intsAt 0 registrations = some ids) (hmax : ids.max? = some id) {n : Nat}
    (hn : n ≤ reg.num_services.toNatClampNeg) :
    Adds store ((List.range n).foldl (storeServiceRow H reg) store) registrations
      (services ++ (List.range n).map fun i => serviceRow id (text (reg.service i))) := by
  induction n with
  | zero => exact ⟨rfl, by simpa using h, fun _ _ _ => rfl⟩
  | succ n ih =>
      have hloop := ih (Nat.le_of_succ_le hn)
      have hround := storeServiceRow_adds htext _ hloop.stored hids hmax hn
      rw [List.append_assoc] at hround
      rw [List.range_succ, List.foldl_append, List.map_append]
      exact hloop.trans hround

theorem interp_selectSql {db : Db} {registrations services : List Row}
    (h : Stored db registrations services none) : interp db selectSql = some db := by
  have hrun : Mode.start.run selectSql = (.start, [.keyword .select, .star, .keyword .from,
      .ident registrationTable, .semi]) := by decide +kernel
  have hscript : script 5 [.keyword .select, .star, .keyword .from, .ident registrationTable,
      .semi] = some [.selectAll registrationTable] := rfl
  rw [interp_eq hrun hscript, execAll_cons (exec_selectAll h.find?_registrations), execAll_nil]

/-- **A registration of literals adds its rows**, with what the literals stand for,
and no error is reported. -/
theorem storeRegistration_adds {text : Ptr → List UInt8} {reg : ServiceReg}
    (htext : Literals H text reg) {store : Store} {ids : List Int} (h : Ready store.db ids) :
    Adds store (storeRegistration H store reg)
      (store.db.rows registrationTable ++ [rowOf text (nextAfter ids) reg])
      (store.db.rows servicesTable ++ serviceRowsOf text (nextAfter ids) reg) := by
  have hname := htext reg.service_name (by simp [printedPtrs])
  have haddress := htext reg.address (by simp [printedPtrs])
  have hport := htext reg.port (by simp [printedPtrs])
  obtain ⟨db₁, hexec, hstored₁, hsame₁⟩ := exec_registrationScript h (text reg.service_name)
    (text reg.address) (text reg.port) reg.num_services.toInt
  have hinterp := (interp_eq (run_registrationSql hname haddress hport reg.num_services)
    (script_registration ..) store.db).trans hexec
  have hids : intsAt 0 (store.db.rows registrationTable ++ [rowOf text (nextAfter ids) reg]) =
      some (ids ++ [nextAfter ids]) := intsAt_append h.ids rfl
  have hfirst : H.printAndRun store (registrationText H reg) =
      { store.print (registrationText H reg) with db := db₁ } := Host.run_eq hinterp
  have hloop := storeServiceRows_adds htext { store.print (registrationText H reg) with db := db₁ }
    hstored₁ hids (max?_append_nextAfter ids) (Nat.le_refl _)
  rw [storeRegistration, hfirst]
  simp only [Host.run_eq (interp_selectSql hloop.stored)]
  exact ⟨hloop.reported, hloop.stored, hsame₁.trans hloop.others⟩

end RpcBroker

import RpcBroker.Model.Generators
import RpcBroker.Proofs.RoundTrip
/-!
# RpcBroker.Proofs.Generators

**The two generators agree.** A prototype of the interface is taken apart alike by
both scripts: the regular expression finds its result type, name and parameter
list (`matchPrototype_line`), the list splits into a type and a name for each
parameter (`split_paramsText`), and the loop sorts them (`scanParams_paramsText`).
What each script builds of them fits what the other does (`stubsFit_line`).
-/

namespace RpcBroker

open CLib Perl

/-! ### The regular expression -/

theorem Identifier.isSpace_chars (x : Identifier) : ∀ c ∈ x.chars, isSpace c = false :=
  fun c hc => isSpace_of_isWord (x.word c hc)

/-- What a type is written with. -/
theorem CType.chars_text (t : CType) :
    t.text.chars ≠ [] ∧ ∀ c ∈ t.text.chars, (isWord c || c = 42) = true := by
  cases t with
  | int => exact ⟨by decide, forall_of_all (by decide)⟩
  | charPtr => exact ⟨by decide, forall_of_all (by decide)⟩

theorem CType.isSpace_chars (t : CType) : ∀ c ∈ t.text.chars, isSpace c = false := by
  cases t with
  | int => exact forall_not_of_all (by decide)
  | charPtr => exact forall_not_of_all (by decide)

/-- No byte of a parameter list is the end of a line. -/
theorem Prototype.paramsText_ne_newline (proto : Prototype) : ∀ c ∈ proto.paramsText, c ≠ 10 := by
  refine forall_mem_join (by simp [text]) ?_
  intro x hx c hc
  obtain ⟨⟨t, name⟩, -, rfl⟩ := List.mem_map.mp hx
  rcases List.mem_append.mp hc with hc | hc
  · rcases List.mem_append.mp hc with hc | hc
    · rintro rfl
      exact absurd ((CType.chars_text t).2 _ hc) (by decide)
    · rintro rfl
      exact absurd hc (by decide)
  · rintro rfl
    exact absurd (name.word _ hc) (by decide)

/-- `.*` takes the rest of the line and gives the last two characters back. -/
theorem matchHere_params {params : Text} (hparams : ∀ c ∈ params, c ≠ 10) (eol : Bool) :
    matchHere [.star (· ≠ 10), .one (· = 41), .one (· = 59)]
      (params ++ 41 :: 59 :: lineEnd eol) = some [params, [41], [59]] := by
  have hlongest : (Item.star (· ≠ 10)).longest (params ++ 41 :: 59 :: lineEnd eol) =
      (params ++ [41, 59]).length := by
    have hrun : ∀ c ∈ params ++ [41, 59], (Item.star (· ≠ 10)).cls c = true := by
      intro c hc
      rcases List.mem_append.mp hc with hc | hc
      · exact decide_eq_true (hparams c hc)
      · exact forall_of_all (by decide : [41, 59].all (Item.star (· ≠ 10)).cls = true) c hc
    have hend : ∀ c ∈ (lineEnd eol).head?, (Item.star (· ≠ 10)).cls c = false := by
      cases eol <;> simp [lineEnd, text, Item.star]
    rw [← longest_run rfl hrun hend, List.append_assoc]
    rfl
  rw [List.length_append, List.length_cons, List.length_singleton] at hlongest
  refine matchHere_backOff (Nat.zero_le _) (by omega) ?_ ?_
  · intro k hk hkn
    have hk' : k = params.length + 1 ∨ k = params.length + 2 := by omega
    rcases hk' with rfl | rfl
    · rw [List.drop_length_add_append]
      exact matchHere_one_none (by simp)
    · rw [List.drop_length_add_append]
      exact matchHere_one_none (by cases eol <;> simp [lineEnd, text])
  · exact matchHere_one (by decide) (matchHere_one (by decide) rfl)

/-- **The expression finds the three parts of a prototype.** -/
theorem matchPrototype_line (proto : Prototype) (eol : Bool) :
    matchPrototype (proto.line ++ lineEnd eol) =
      some (proto.ret.text.chars, proto.name.chars, proto.paramsText) := by
  obtain ⟨c, cs, hname⟩ := List.exists_cons_of_ne_nil proto.name.nonempty
  have hline : proto.line ++ lineEnd eol =
      proto.ret.text.chars ++ 32 :: ([] ++ c :: (cs ++ 40 :: (proto.paramsText ++
        41 :: 59 :: lineEnd eol))) := by
    have hspace : text " " = [32] := rfl
    have hopen : text "(" = [40] := rfl
    have hclose : text ");" = [41, 59] := rfl
    simp only [Prototype.line, hspace, hopen, hclose, hname, List.append_assoc, List.cons_append,
      List.nil_append]
  have hparams := matchHere_params proto.paramsText_ne_newline eol
  have hname' : matchHere [.plus isWord, .star isSpace, .one (· = 40), .star (· ≠ 10),
      .one (· = 41), .one (· = 59)]
      (proto.name.chars ++ 40 :: (proto.paramsText ++ 41 :: 59 :: lineEnd eol)) =
      some [proto.name.chars, [], [40], proto.paramsText, [41], [59]] := by
    refine matchHere_run rfl (List.length_pos_iff.mpr proto.name.nonempty) proto.name.word
      (by decide) ?_
    exact matchHere_run (w := []) rfl (Nat.le_refl 0) (by simp) (by decide)
      (matchHere_one (by decide) hparams)
  have hmatch : matchHere prototypePattern (proto.line ++ lineEnd eol) =
      some [proto.ret.text.chars, [32], proto.name.chars, [], [40], proto.paramsText, [41],
        [59]] := by
    rw [hline]
    refine matchHere_run rfl (List.length_pos_iff.mpr (CType.chars_text _).1)
      (CType.chars_text _).2 (by decide) ?_
    refine matchHere_run (w := [32]) rfl (by decide) (forall_of_all (by decide)) ?_ ?_
    · exact proto.name.isSpace_chars c (by rw [hname]; exact List.mem_cons_self ..)
    · rw [hname] at hname' ⊢
      exact hname'
  rw [matchPrototype, search_of_matchHere hmatch]

/-! ### The parameter list -/

/-- The words of a parameter list: a type and a name in turn, each name but the
last with its comma. -/
def paramWords : List (CType × Identifier) → List Text
  | [] => []
  | [param] => [param.1.text.chars, param.2.chars]
  | param :: params => param.1.text.chars :: (param.2.chars ++ text ",") :: paramWords params

/-- The parameter list splits into its words. -/
theorem split_paramsText (params : List (CType × Identifier)) :
    split (join (text ", ") (params.map paramText)) = paramWords params := by
  have hcomma : ∀ c ∈ text ",", isSpace c = false := forall_not_of_all (by decide)
  induction params with
  | nil => rfl
  | cons param params ih =>
      have htype : ∀ rest : Text, split (param.1.text.chars ++ text " " ++ rest) =
          param.1.text.chars :: split rest := by
        intro rest
        rw [List.append_assoc]
        exact split_word_cons (CType.chars_text _).1 (CType.isSpace_chars _) (by decide)
      cases params with
      | nil =>
          rw [List.map_singleton, join_singleton, paramText, htype,
            split_word param.2.nonempty param.2.isSpace_chars]
          rfl
      | cons next params =>
          have hname : ∀ c ∈ param.2.chars ++ text ",", isSpace c = false := by
            intro c hc
            exact (List.mem_append.mp hc).elim (param.2.isSpace_chars c) (hcomma c)
          have hrest : ∀ rest : Text, param.2.chars ++ text ", " ++ rest =
              (param.2.chars ++ text ",") ++ 32 :: rest := by
            intro rest
            simp [text]
          rw [List.map_cons, List.map_cons, join_cons_cons, ← List.map_cons, paramText,
            List.append_assoc (_ ++ _), List.append_assoc (_ ++ _), htype, ← List.append_assoc,
            hrest, split_word_cons (by simp [param.2.nonempty]) hname (by decide), ih]
          rfl

/-- Taking the commas out of a name leaves the name. -/
theorem filter_comma_chars (x : Identifier) : x.chars.filter (· ≠ 44) = x.chars := by
  refine List.filter_eq_self.mpr fun c hc => ?_
  simp only [decide_eq_true_eq]
  rintro rfl
  exact absurd (x.word _ hc) (by decide)

theorem filter_comma_append (x : Identifier) :
    (x.chars ++ text ",").filter (· ≠ 44) = x.chars := by
  rw [List.filter_append, filter_comma_chars]
  exact List.append_nil _

/-- A type, and a name that may have its comma. -/
theorem paramWords_cons (param : CType × Identifier) (params : List (CType × Identifier)) :
    ∃ name, paramWords (param :: params) = param.1.text.chars :: name :: paramWords params ∧
      name.filter (· ≠ 44) = param.2.chars := by
  cases params with
  | nil => exact ⟨_, rfl, filter_comma_chars _⟩
  | cons next params => exact ⟨_, rfl, filter_comma_append _⟩

/-- Two rounds of the loop: a type, at an even position, and the name behind it.
The counter stands at the number of types read; one element may stand behind them,
and the array of names is one longer. -/
theorem scanLoop_param (conv : Text → Text) {type name paramName : Text} (words : List Text)
    {i : Nat} {format : Text} {types names more : List Text} (hi : i % 2 = 0)
    (hnames : names.length = types.length + 1) (hmore : more.length ≤ 1)
    (hname : name.filter (· ≠ 44) = paramName) :
    scanLoop conv i (type :: name :: words) ⟨format, types ++ more, names, types.length⟩ =
      scanLoop conv (i + 2) words
        ⟨format ++ conv type, types ++ [type], names ++ [paramName], types.length + 1⟩ := by
  have hodd : ¬ (i + 1) % 2 = 0 := by omega
  have hassign : assign names (types.length + 1) paramName = names ++ [paramName] := by
    rw [← hnames]
    exact assign_length names paramName
  simp only [scanLoop, scanToken, if_pos hi, if_neg hodd, assign_append hmore, hname, hassign]

/-- **The loop sorts the words.** -/
theorem scanLoop_paramWords (conv : Text → Text) (params : List (CType × Identifier)) :
    ∀ (i : Nat) (format : Text) (types names more : List Text), i % 2 = 0 →
      names.length = types.length + 1 → more.length ≤ 1 →
      ∃ more', scanLoop conv i (paramWords params) ⟨format, types ++ more, names, types.length⟩ =
        ⟨format ++ params.flatMap fun param => conv param.1.text.chars,
          types ++ (params.map fun param => param.1.text.chars) ++ more',
          names ++ params.map fun param => param.2.chars, types.length + params.length⟩ := by
  induction params with
  | nil =>
      intro i format types names more _ _ _
      exact ⟨more, by simp [paramWords, scanLoop]⟩
  | cons param params ih =>
      intro i format types names more hi hnames hmore
      obtain ⟨name, hwords, hname⟩ := paramWords_cons param params
      obtain ⟨more', hrest⟩ := ih (i + 2) (format ++ conv param.1.text.chars)
        (types ++ [param.1.text.chars]) (names ++ [param.2.chars]) [] (by omega) (by simp [hnames])
        (Nat.zero_le 1)
      refine ⟨more', ?_⟩
      rw [hwords, scanLoop_param conv _ hi hnames hmore hname]
      rw [List.append_nil, List.length_append, List.length_singleton] at hrest
      rw [hrest]
      simp [Nat.add_comm, Nat.add_left_comm]

/-- What the loop leaves of a prototype's parameter list: the conversions, the types
up to the counter, and the names once the empty one is gone. -/
theorem scanParams_paramsText (conv : Text → Text) (proto : Prototype) :
    (scanParams conv proto.paramsText).format =
        (proto.params.flatMap fun param => conv param.1.text.chars) ∧
      (∃ more, (scanParams conv proto.paramsText).paramTypes =
        (proto.params.map fun param => param.1.text.chars) ++ more) ∧
      (scanParams conv proto.paramsText).names = (proto.params.map fun param => param.2.chars) ∧
      (scanParams conv proto.paramsText).paramCount = proto.params.length := by
  have hinit : ParamScan.init = ⟨[], [] ++ [[]], [[]], ([] : List Text).length⟩ := rfl
  obtain ⟨more, hscan⟩ := scanLoop_paramWords conv proto.params 0 [] [] [[]] [[]] rfl rfl
    (Nat.le_refl 1)
  have hnames : ((proto.params.map fun param => param.2.chars).filter (· ≠ [])) =
      proto.params.map fun param => param.2.chars := by
    refine List.filter_eq_self.mpr fun x hx => ?_
    obtain ⟨param, -, rfl⟩ := List.mem_map.mp hx
    simpa using param.2.nonempty
  rw [scanParams, Prototype.paramsText, split_paramsText, hinit, hscan]
  refine ⟨rfl, ⟨more, rfl⟩, ?_, Nat.zero_add _⟩
  rw [ParamScan.names, List.filter_append, hnames]
  rfl

/-! ### The stubs -/

/-- The conversions of a format: what follows each `%`. -/
def conversions : Text → List UInt8
  | [] => []
  | [_] => []
  | p :: conv :: rest => if p = percent then conv :: conversions rest else conversions (conv :: rest)

/-- The conversion of a type. -/
def CType.conversion : CType → UInt8
  | .int => convInt
  | .charPtr => convStr

/-- The declaration of one parameter in the server's stub, read at its own type. -/
def readText (param : CType × Identifier) (i : Nat) : Text :=
  match param.1 with
  | .int => text "\t\tint " ++ param.2.chars ++ text " = *(int*) params[" ++ number i ++ text "];\n"
  | .charPtr =>
      text "\t\tchar* " ++ param.2.chars ++ text " = (char*) params[" ++ number i ++ text "];\n"

/-- The stubs of the client and of the server are both for the prototype, and fit. -/
structure StubsFit (proto : Prototype) (client : ClientStub) (server : ServerStub) : Prop where
  /-- The client's stub has the prototype's signature. -/
  signature : client.fnRet = proto.ret.text.chars ∧ client.fnName = proto.name.chars ∧
    client.fnParams = proto.paramsText
  /-- Its format is one conversion for each parameter, in order, and nothing else. -/
  format : client.format = proto.params.flatMap fun param => [percent, param.1.conversion]
  conversions : conversions client.format = proto.params.map fun param => param.1.conversion
  /-- The names follow it. -/
  arguments : client.commaParams = proto.params.flatMap fun param => text "," ++ param.2.chars
  /-- The server's stub is for calls of the same name, -/
  operation : server.fnName = proto.name.chars
  /-- reads the entries of `params` in order, -/
  reads : server.paramGets = proto.params.zipIdx.flatMap fun param => readText param.1 param.2
  /-- and calls the function with what it read. -/
  call : server.fnCall = proto.name.chars ++ text "(" ++
    join (text ",") (proto.params.map fun param => param.2.chars) ++ text ")"
  /-- The response is packed by the result type, and read by it. -/
  reply : (proto.ret = .int ∧ server.format = text "%d" ∧
      client.retStatement = text "return  get_hdr_int(result, REPLY_HDR);") ∨
    (proto.ret = .charPtr ∧ server.format = text "%s" ∧
      client.retStatement = text "return  get_hdr_str(result, REPLY_HDR);")

theorem clientConv_type (t : CType) : clientConv t.text.chars = [percent, t.conversion] := by
  cases t <;> decide

/-- A format made of conversions has these and no others. -/
theorem conversions_flatMap (params : List (CType × Identifier)) :
    conversions (params.flatMap fun param => [percent, param.1.conversion]) =
      params.map fun param => param.1.conversion := by
  induction params with
  | nil => rfl
  | cons param params ih =>
      have hstep : ∀ rest, conversions (percent :: param.1.conversion :: rest) =
          param.1.conversion :: conversions rest := by
        intro rest
        rw [conversions, if_pos rfl]
      rw [List.flatMap_cons, List.map_cons, ← ih]
      exact hstep _

/-- `$commaParams` is a comma and a name for each parameter. -/
theorem commaParams_eq (names : List Text) : commaParams names = names.flatMap (text "," ++ ·) := by
  match names with
  | [] => rfl
  | [name] => exact (List.append_nil _).symm
  | x :: y :: names =>
      rw [commaParams, if_pos (by simp)]
      exact append_join (by simp)

/-- The declaration the script writes for a parameter of this type. -/
theorem paramGet_read (param : CType × Identifier) (i : Nat) :
    (if param.1.text.chars = text "int" then
      text "\t\t" ++ param.1.text.chars ++ text " " ++ param.2.chars ++ text " = *(" ++
        param.1.text.chars ++ text "*) params[" ++ number i ++ text "];\n"
    else
      text "\t\t" ++ param.1.text.chars ++ text " " ++ param.2.chars ++ text " = (" ++
        param.1.text.chars ++ text ") params[" ++ number i ++ text "];\n") = readText param i := by
  obtain ⟨t, name⟩ := param
  cases t with
  | int =>
      have htype : CType.int.text.chars = text "int" := by decide
      have hread : text " = *(int*) params[" =
        text " = *(" ++ (text "int" ++ text "*) params[") := by decide
      simp only [htype, if_pos, readText, hread, List.append_assoc]
      rfl
  | charPtr =>
      have htype : CType.charPtr.text.chars = text "char*" := by decide
      have hread : text " = (char*) params[" =
        text " = (" ++ (text "char*" ++ text ") params[") := by decide
      have hne : text "char*" ≠ text "int" := by decide
      simp only [htype, if_neg hne, readText, hread, List.append_assoc]
      rfl

/-- `$paramGets` declares each parameter at its own type. -/
theorem paramGet_eq (params : List (CType × Identifier)) (more : List Text) :
    (List.range params.length).flatMap
        (paramGet ((params.map fun param => param.1.text.chars) ++ more)
          (params.map fun param => param.2.chars)) =
      params.zipIdx.flatMap fun param => readText param.1 param.2 := by
  rw [List.flatMap_def, List.flatMap_def]
  congr 1
  refine List.ext_getElem (by simp) fun i hi _ => ?_
  have hlt : i < params.length := by simpa using hi
  have htype : ((params.map fun param => param.1.text.chars) ++ more).getD i [] =
      params[i].1.text.chars := by
    simp [List.getD_eq_getElem?_getD, List.getElem?_append_left, hlt]
  have hname : (params.map fun param => param.2.chars).getD i [] = params[i].2.chars := by
    simp [List.getD_eq_getElem?_getD, hlt]
  simp only [List.getElem_map, List.getElem_range, List.getElem_zipIdx, Nat.zero_add, paramGet,
    htype, hname]
  exact paramGet_read _ _

/-- What `clientStub` makes of a prototype. -/
theorem clientStub_line (proto : Prototype) (eol : Bool) :
    clientStub (proto.line ++ lineEnd eol) =
      some ⟨proto.ret.text.chars, proto.name.chars, proto.paramsText,
        proto.params.flatMap fun param => [percent, param.1.conversion],
        proto.params.flatMap fun param => text "," ++ param.2.chars,
        retStatement proto.ret.text.chars⟩ := by
  obtain ⟨hformat, -, hnames, -⟩ := scanParams_paramsText clientConv proto
  have hconv : (scanParams clientConv proto.paramsText).format =
      proto.params.flatMap fun param => [percent, param.1.conversion] := by
    rw [hformat]
    exact List.flatMap_congr fun param _ => clientConv_type param.1
  rw [clientStub, matchPrototype_line]
  show some (ClientStub.mk _ _ _ _ _ _) = _
  rw [hconv, hnames, commaParams_eq, List.flatMap_map]

/-- What `serverStub` makes of it. -/
theorem serverStub_line (proto : Prototype) (eol : Bool) :
    serverStub (proto.line ++ lineEnd eol) =
      some ⟨proto.name.chars, responseConv proto.ret.text.chars,
        proto.params.zipIdx.flatMap fun param => readText param.1 param.2,
        proto.name.chars ++ text "(" ++
          join (text ",") (proto.params.map fun param => param.2.chars) ++ text ")"⟩ := by
  obtain ⟨-, ⟨more, htypes⟩, hnames, hcount⟩ := scanParams_paramsText (fun _ => []) proto
  rw [serverStub, matchPrototype_line]
  show some (ServerStub.mk _ _ _ _) = _
  rw [hcount, htypes, hnames, paramGet_eq]

/-- The format is the one the client's stub is modelled with. -/
theorem clientStub_stubFormat (proto : Prototype) (eol : Bool) :
    (clientStub (proto.line ++ lineEnd eol)).map ClientStub.format =
      some (stubFormat (proto.params.map declared)).chars := by
  have hconv : ∀ t : CType, formatOfToken t.text = [percent, t.conversion] := by
    intro t
    cases t with
    | int => exact formatOfToken_int
    | charPtr => exact formatOfToken_charPtr
  have hnul : 0 ∉ proto.params.flatMap fun param => [percent, param.1.conversion] := by
    intro hmem
    obtain ⟨param, -, hzero⟩ := List.mem_flatMap.mp hmem
    have hne : ∀ t : CType, 0 ∉ [percent, t.conversion] := by
      intro t
      cases t <;> decide
    exact hne _ hzero
  rw [clientStub_line, stubFormat, formatLoop_paramTokens _ 0 rfl, List.flatMap_map]
  simp only [declared, hconv, CString.chars_ofBytes hnul, Option.map_some]

/-- What the scripts make of a prototype fits. -/
theorem stubsFit_line (proto : Prototype) (eol : Bool) :
    ∃ client server, clientStub (proto.line ++ lineEnd eol) = some client ∧
      serverStub (proto.line ++ lineEnd eol) = some server ∧ StubsFit proto client server := by
  refine ⟨_, _, clientStub_line proto eol, serverStub_line proto eol, ⟨rfl, rfl, rfl⟩, rfl,
    conversions_flatMap proto.params, rfl, rfl, rfl, rfl, ?_⟩
  cases hret : proto.ret with
  | int => exact Or.inl ⟨rfl, rfl, rfl⟩
  | charPtr => exact Or.inr ⟨rfl, rfl, rfl⟩

end RpcBroker

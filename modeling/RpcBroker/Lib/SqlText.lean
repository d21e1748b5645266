import RpcBroker.Lib.Sql
/-!
# RpcBroker.Lib.SqlText

**The text of a script**, and what it means: `lex` cuts it into tokens, `script`
reads statements off these, and `interp` executes them.

The lexer is a machine that takes a character at a time, so a text made of pieces
is followed piece by piece (`run_append`). A piece that is a constant is a
computation; a piece that came from elsewhere is the one thing to prove. Between
quotes any text without a quote is itself (`run_literal`), and this is all that
can be said: a quote in it is the end of the literal, or half of one in it.
-/

namespace Sql

open CLib

/-! ### Tokens -/

/-- The words the fragment gives a meaning to. -/
inductive Keyword
  | create | temp | table | «if» | not | «exists» | insert | or | replace | into | values
  | drop | select | max | coalesce | «from» | «where» | limit
  | text | integer | int | primary | key
  deriving DecidableEq

inductive Token
  | keyword (k : Keyword)
  | ident (n : Name)
  | int (n : Nat)
  | str (bytes : List UInt8)
  | lpar
  | rpar
  | comma
  | semi
  | star
  | eq
  | minus
  deriving DecidableEq

def keywords : List (Name × Keyword) :=
  [((CString.lit "create").chars, .create), ((CString.lit "temp").chars, .temp),
    ((CString.lit "table").chars, .table), ((CString.lit "if").chars, .if),
    ((CString.lit "not").chars, .not), ((CString.lit "exists").chars, .exists),
    ((CString.lit "insert").chars, .insert), ((CString.lit "or").chars, .or),
    ((CString.lit "replace").chars, .replace), ((CString.lit "into").chars, .into),
    ((CString.lit "values").chars, .values), ((CString.lit "drop").chars, .drop),
    ((CString.lit "select").chars, .select), ((CString.lit "max").chars, .max),
    ((CString.lit "coalesce").chars, .coalesce), ((CString.lit "from").chars, .from),
    ((CString.lit "where").chars, .where), ((CString.lit "limit").chars, .limit),
    ((CString.lit "text").chars, .text), ((CString.lit "integer").chars, .integer),
    ((CString.lit "int").chars, .int), ((CString.lit "primary").chars, .primary),
    ((CString.lit "key").chars, .key)]

/-! ### Characters -/

def isDigit (c : UInt8) : Bool := 48 ≤ c && c ≤ 57

def lower (c : UInt8) : UInt8 := if 65 ≤ c && c ≤ 90 then c + 32 else c

/-- Letters, digits and the underscore. -/
def isWord (c : UInt8) : Bool := isDigit c || (97 ≤ lower c && lower c ≤ 122) || c = 95

def isSpace (c : UInt8) : Bool := c = 32 || c = 9 || c = 10 || c = 13

/-- The single quote. -/
def quote : UInt8 := 39

/-- The characters that are tokens by themselves. -/
def punctuation (c : UInt8) : Option Token :=
  if c = 40 then some .lpar
  else if c = 41 then some .rpar
  else if c = 42 then some .star
  else if c = 44 then some .comma
  else if c = 59 then some .semi
  else if c = 61 then some .eq
  else none

/-- The number a run of digits is. -/
def number (digits : List UInt8) : Nat := digits.foldl (fun n c => 10 * n + (c.toNat - 48)) 0

/-- The token a word is: a number that fits 64 bits, a keyword or a name. -/
def wordToken (word : List UInt8) : Option Token :=
  if word.all isDigit then
    if number word < 0x8000000000000000 then some (.int (number word)) else none
  else if word.head?.any isDigit then none
  else match keywords.lookup (word.map lower) with
    | some k => some (.keyword k)
    | none => some (.ident (word.map lower))

/-! ### The lexer -/

/-- Where the lexer is. -/
inductive Mode
  /-- Between tokens. -/
  | start
  | word (w : List UInt8)
  /-- In a literal. -/
  | str (bytes : List UInt8)
  /-- Behind a quote in a literal: its end, or half of a quote in it. -/
  | quote (bytes : List UInt8)
  /-- Behind a minus sign, which two of are a comment. -/
  | minus
  /-- In something outside the fragment. -/
  | bad
  deriving DecidableEq

/-- A character that starts a token. -/
def Mode.begin (c : UInt8) : Mode × List Token :=
  if isSpace c then (.start, [])
  else if c = Sql.quote then (.str [], [])
  else if isWord c then (.word [c], [])
  else if c = 45 then (.minus, [])
  else match punctuation c with
    | some tok => (.start, [tok])
    | none => (.bad, [])

/-- A character that starts a token and by that ends one. -/
def Mode.endBegin (tok : Option Token) (c : UInt8) : Mode × List Token :=
  match tok with
  | some tok => ((begin c).1, tok :: (begin c).2)
  | none => (.bad, [])

def Mode.step : Mode → UInt8 → Mode × List Token
  | .start, c => begin c
  | .word w, c =>
      if isWord c then (.word (w ++ [c]), [])
      else if c = Sql.quote then (.bad, [])
      else endBegin (wordToken w) c
  | .str bytes, c =>
      if c = Sql.quote then (.quote bytes, [])
      else if c = 0 then (.bad, [])
      else (.str (bytes ++ [c]), [])
  | .quote bytes, c =>
      if c = Sql.quote then (.str (bytes ++ [c]), []) else endBegin (some (.str bytes)) c
  | .minus, c => if c = 45 then (.bad, []) else endBegin (some .minus) c
  | .bad, _ => (.bad, [])

/-- Take a text in. -/
def Mode.run : Mode → List UInt8 → Mode × List Token
  | m, [] => (m, [])
  | m, c :: text => (((m.step c).1.run text).1, (m.step c).2 ++ ((m.step c).1.run text).2)

/-- The tokens of a text, if it ends between tokens. -/
def lex (text : List UInt8) : Option (List Token) :=
  match Mode.start.run text with
  | (.start, toks) => some toks
  | _ => none

/-! ### Statements -/

/-- Take tokens off the front. -/
def strip : List Token → List Token → Option (List Token)
  | [], toks => some toks
  | _ :: _, [] => none
  | want :: wants, tok :: toks => if tok = want then strip wants toks else none

def keywordsOf (ks : List Keyword) : List Token := ks.map .keyword

def ident : List Token → Option (Name × List Token)
  | .ident n :: toks => some (n, toks)
  | _ => none

/-- Items with commas between them, closed by a parenthesis. -/
def items {α : Type} (item : List Token → Option (α × List Token)) :
    Nat → List Token → Option (List α × List Token)
  | 0, _ => none
  | fuel + 1, toks => do
      let (a, toks) ← item toks
      match toks with
      | .comma :: toks => do
          let (as, toks) ← items item fuel toks
          return (a :: as, toks)
      | .rpar :: toks => return ([a], toks)
      | _ => none

def column : List Token → Option (Column × List Token)
  | .ident n :: .keyword .text :: .keyword .primary :: .keyword .key :: toks =>
      some (⟨n, .text, true⟩, toks)
  | .ident n :: .keyword .integer :: .keyword .primary :: .keyword .key :: toks =>
      some (⟨n, .integer, true⟩, toks)
  | .ident n :: .keyword .text :: toks => some (⟨n, .text, false⟩, toks)
  | .ident n :: .keyword .integer :: toks => some (⟨n, .integer, false⟩, toks)
  | .ident n :: .keyword .int :: toks => some (⟨n, .int, false⟩, toks)
  | _ => none

def expr : List Token → Option (Expr × List Token)
  | .int n :: toks => some (.int n, toks)
  | .minus :: .int n :: toks => some (.int (-n), toks)
  | .str bytes :: toks => some (.str bytes, toks)
  | .lpar :: .keyword .select :: .keyword .max :: .lpar :: .ident c :: .rpar :: .keyword .from ::
      .ident t :: .rpar :: toks => some (.query ⟨.max c, t, none⟩, toks)
  | .lpar :: .keyword .select :: .keyword .coalesce :: .lpar :: .ident a :: .comma :: .ident b ::
      .rpar :: .keyword .from :: .ident t :: .keyword .where :: .ident c :: .eq :: .str bytes ::
      .keyword .limit :: .int 1 :: .rpar :: toks =>
      some (.query ⟨.coalesce a b, t, some (c, bytes)⟩, toks)
  | _ => none

def create (s : Schema) (toks : List Token) : Option (Stmt × List Token) := do
  let (n, toks) ← ident toks
  let toks ← strip [.lpar] toks
  let (columns, toks) ← items column toks.length toks
  return (.create s n columns, toks)

def insert (toks : List Token) : Option (Stmt × List Token) := do
  let (n, toks) ← ident toks
  let toks ← strip [.lpar] toks
  let (names, toks) ← items ident toks.length toks
  let toks ← strip [.keyword .values, .lpar] toks
  let (values, toks) ← items expr toks.length toks
  return (.insert n names values, toks)

def replace (toks : List Token) : Option (Stmt × List Token) := do
  let (n, toks) ← ident toks
  let toks ← strip [.keyword .values, .lpar] toks
  let (values, toks) ← items expr toks.length toks
  return (.replace n values, toks)

/-- A statement, without its semicolon. -/
def stmt : List Token → Option (Stmt × List Token)
  | .keyword .create :: .keyword .table :: .keyword .if :: .keyword .not :: .keyword .exists ::
      toks => create .main toks
  | .keyword .create :: .keyword .temp :: .keyword .table :: .keyword .if :: .keyword .not ::
      .keyword .exists :: toks => create .temp toks
  | .keyword .insert :: .keyword .into :: toks => insert toks
  | .keyword .insert :: .keyword .or :: .keyword .replace :: .keyword .into :: toks => replace toks
  | .keyword .drop :: .keyword .table :: .ident n :: toks => some (.drop n, toks)
  | .keyword .select :: .star :: .keyword .from :: .ident n :: toks => some (.selectAll n, toks)
  | _ => none

/-- Statements, each with its semicolon. -/
def script : Nat → List Token → Option (List Stmt)
  | _, [] => some []
  | 0, _ => none
  | fuel + 1, toks => do
      let (s, toks) ← stmt toks
      let toks ← strip [.semi] toks
      let ss ← script fuel toks
      return s :: ss

/-- The statements of a text. -/
def parse (text : List UInt8) : Option (List Stmt) := do
  let toks ← lex text
  script toks.length toks

/-- What executing a text makes of a database. -/
def interp (db : Db) (text : List UInt8) : Option Db := do
  let stmts ← parse text
  execAll db stmts

/-! ### Lexing piece by piece -/

theorem run_append (m : Mode) (text more : List UInt8) :
    m.run (text ++ more) =
      (((m.run text).1.run more).1, (m.run text).2 ++ ((m.run text).1.run more).2) := by
  induction text generalizing m with
  | nil => rfl
  | cons c text ih => simp only [List.cons_append, Mode.run, ih, List.append_assoc]

/-- **In a literal, a text without quotes is itself.** -/
theorem run_literal {text : List UInt8} (hquote : quote ∉ text) (hnul : 0 ∉ text)
    (bytes : List UInt8) : (Mode.str bytes).run text = (.str (bytes ++ text), []) := by
  induction text generalizing bytes with
  | nil => rw [List.append_nil, Mode.run]
  | cons c text ih =>
      have hc : c ≠ quote := fun h => hquote (h ▸ List.mem_cons_self ..)
      have h0 : c ≠ 0 := fun h => hnul (h ▸ List.mem_cons_self ..)
      have hstep : (Mode.str bytes).step c = (.str (bytes ++ [c]), []) := by
        rw [Mode.step, if_neg hc, if_neg h0]
      have hrest := ih (fun h => hquote (List.mem_cons_of_mem _ h))
        (fun h => hnul (List.mem_cons_of_mem _ h)) (bytes ++ [c])
      rw [Mode.run, hstep, hrest, List.append_assoc]
      rfl

/-- Digits make one word. -/
theorem run_digits {text : List UInt8} (h : ∀ c ∈ text, isDigit c = true) (w : List UInt8) :
    (Mode.word w).run text = (.word (w ++ text), []) := by
  induction text generalizing w with
  | nil => rw [List.append_nil, Mode.run]
  | cons c text ih =>
      have hc : isWord c = true := by simp [isWord, h c (List.mem_cons_self ..)]
      have hstep : (Mode.word w).step c = (.word (w ++ [c]), []) := by
        rw [Mode.step, if_pos hc]
      have hrest := ih (fun c hc => h c (List.mem_cons_of_mem _ hc)) (w ++ [c])
      rw [Mode.run, hstep, hrest, List.append_assoc]
      rfl

/-- Between quotes, the text is a literal for these bytes. -/
def Literal (text bytes : List UInt8) : Prop := (Mode.str []).run text = (.str bytes, [])

instance (text bytes : List UInt8) : Decidable (Literal text bytes) := by
  unfold Literal
  infer_instance

theorem literal_unquoted {text : List UInt8} (hquote : quote ∉ text) (hnul : 0 ∉ text) :
    Literal text text := run_literal hquote hnul []

/-- The quote behind a literal ends it, unless another one follows. -/
theorem run_endLiteral {c : UInt8} (hc : c ≠ quote) (bytes more : List UInt8) :
    (Mode.str bytes).run (quote :: c :: more) =
      ((Mode.start.run (c :: more)).1, .str bytes :: (Mode.start.run (c :: more)).2) := by
  have hquote : (Mode.str bytes).step quote = (.quote bytes, []) := rfl
  have hend : (Mode.quote bytes).step c = ((Mode.begin c).1, .str bytes :: (Mode.begin c).2) := by
    rw [Mode.step, if_neg hc, Mode.endBegin]
  rw [Mode.run, hquote, Mode.run, hend, Mode.run]
  rfl

/-- A literal, with more behind its closing quote. -/
theorem Literal.run {text bytes : List UInt8} (h : Literal text bytes) {c : UInt8} (hc : c ≠ quote)
    (more : List UInt8) :
    (Mode.str []).run (text ++ quote :: c :: more) =
      ((Mode.start.run (c :: more)).1, .str bytes :: (Mode.start.run (c :: more)).2) := by
  rw [run_append, show (Mode.str []).run text = _ from h, run_endLiteral hc]
  rfl

theorem isWord_digit {c : UInt8} (h : isDigit c = true) : isWord c = true := by simp [isWord, h]

/-- A digit starts a word. -/
theorem begin_digit {c : UInt8} (h : isDigit c = true) : Mode.begin c = (.word [c], []) := by
  have hlo : 48 ≤ c.toNat := by
    have hbounds := h
    simp only [isDigit, Bool.and_eq_true, decide_eq_true_eq, UInt8.le_iff_toNat_le] at hbounds
    exact hbounds.1
  have hne : ∀ d : UInt8, d.toNat < 48 → c ≠ d := by
    rintro d hd rfl
    omega
  have hspace : isSpace c = false := by
    simp [isSpace, hne 32 (by decide), hne 9 (by decide), hne 10 (by decide), hne 13 (by decide)]
  rw [Mode.begin, hspace, if_neg Bool.false_ne_true, if_neg (hne quote (by decide)),
    if_pos (isWord_digit h)]

/-- A number, closed by what is no part of a word. -/
theorem run_number {digits : List UInt8} (hdigits : ∀ c ∈ digits, isDigit c = true)
    (hne : digits ≠ []) (hlt : number digits < 0x8000000000000000) {c : UInt8}
    (hword : isWord c = false) (hquote : c ≠ quote) (more : List UInt8) :
    Mode.start.run (digits ++ c :: more) =
      ((Mode.start.run (c :: more)).1, .int (number digits) :: (Mode.start.run (c :: more)).2) := by
  obtain ⟨d, ds, rfl⟩ := List.exists_cons_of_ne_nil hne
  have hfirst : Mode.start.step d = (.word [d], []) := begin_digit (hdigits d (by simp))
  have hrest := run_digits (fun c hc => hdigits c (List.mem_cons_of_mem _ hc)) [d]
  have htoken : wordToken (d :: ds) = some (.int (number (d :: ds))) := by
    rw [wordToken, if_pos (List.all_eq_true.mpr hdigits), if_pos hlt]
  have hend : (Mode.word (d :: ds)).step c =
      ((Mode.begin c).1, .int (number (d :: ds)) :: (Mode.begin c).2) := by
    rw [Mode.step, if_neg (by simp [hword]), if_neg hquote, htoken, Mode.endBegin]
  rw [List.cons_append, Mode.run, hfirst, run_append, hrest, List.singleton_append, Mode.run, hend,
    Mode.run]
  rfl

/-- A minus sign in front of something else. -/
theorem run_minus {c : UInt8} (hc : c ≠ 45) (more : List UInt8) :
    Mode.start.run (45 :: c :: more) =
      ((Mode.start.run (c :: more)).1, .minus :: (Mode.start.run (c :: more)).2) := by
  have hminus : Mode.start.step 45 = (.minus, []) := rfl
  have hend : Mode.minus.step c = ((Mode.begin c).1, .minus :: (Mode.begin c).2) := by
    rw [Mode.step, if_neg hc, Mode.endBegin]
  rw [Mode.run, hminus, Mode.run, hend, Mode.run]
  rfl

theorem lex_eq {text : List UInt8} {toks : List Token} (h : Mode.start.run text = (.start, toks)) :
    lex text = some toks := by
  rw [lex, h]

/-- What a text means, by way of its tokens and its statements. -/
theorem interp_eq {text : List UInt8} {toks : List Token} {stmts : List Stmt}
    (hlex : Mode.start.run text = (.start, toks)) (hscript : script toks.length toks = some stmts)
    (db : Db) : interp db text = execAll db stmts := by
  simp only [interp, parse, lex_eq hlex, hscript, bind, Option.bind]

end Sql

import MarkMe.Lib.Text

/-! The text of simple SQL statements.

    Three statement shapes are covered: a `SELECT` of one column, an `INSERT` of one column and an
    `UPDATE` of one column, with conjunctions of `column = 'literal'` as conditions. `lex` is a left
    fold of an automaton over the bytes, `parse` reads the tokens up to each semicolon. Outside
    string literals only the space, words, `=`, parentheses and semicolons are understood; every
    other text is rejected, never misread. `parse_text` is the round trip: a statement whose
    literals hold no quote is read back from its own text, alone and unchanged.

        byte:   letter        '            '  '
        idle ──▶ word   idle ──▶ str   str ──▶ quote ──▶ str (a doubled quote)
                 │ letter↺        │ any↺          │ else: the literal has ended -/

namespace Sql
open Text

inductive Keyword where | SELECT | FROM | WHERE | AND | INSERT | INTO | VALUES | UPDATE | SET
  deriving DecidableEq

inductive Token where
  | kw (k : Keyword)
  | ident (w : Bytes)
  | str (s : Bytes)
  | eq | lpar | rpar | semi
  deriving DecidableEq

/-- Equality of a column with a string literal, as a condition or as an assignment. -/
structure Eqn where
  col : Bytes
  lit : Bytes
  deriving DecidableEq

inductive Stmt where
  | select (col table : Bytes) (conds : List Eqn)
  | insert (table col lit : Bytes)
  | update (table : Bytes) (set : Eqn) (conds : List Eqn)
  deriving DecidableEq

def quote : Byte := 39

def keywords : List (Bytes × Keyword) :=
  [(ascii "SELECT", .SELECT), (ascii "FROM", .FROM), (ascii "WHERE", .WHERE), (ascii "AND", .AND),
    (ascii "INSERT", .INSERT), (ascii "INTO", .INTO), (ascii "VALUES", .VALUES),
    (ascii "UPDATE", .UPDATE), (ascii "SET", .SET)]

def isLetter (b : Byte) : Bool := (65 ≤ b && b ≤ 90) || (97 ≤ b && b ≤ 122) || b == 95

def isWordByte (b : Byte) : Bool := isLetter b || isDigit b

def ofWord (w : Bytes) : Token :=
  match keywords.lookup w with
  | some k => .kw k
  | none => .ident w

/-! ### The lexer -/

inductive Mode where
  | idle
  | word (acc : Bytes)
  | str (acc : Bytes)
  | quote (acc : Bytes)
  | bad

/-- Lexer state: the tokens completed and what is being read. -/
structure Lexer where
  toks : List Token
  mode : Mode

/-- The first byte of a token. -/
def start (ts : List Token) (b : Byte) : Lexer :=
  if b = 32 then ⟨ts, .idle⟩
  else if isLetter b then ⟨ts, .word [b]⟩
  else if b = quote then ⟨ts, .str []⟩
  else if b = 61 then ⟨ts ++ [.eq], .idle⟩
  else if b = 40 then ⟨ts ++ [.lpar], .idle⟩
  else if b = 41 then ⟨ts ++ [.rpar], .idle⟩
  else if b = 59 then ⟨ts ++ [.semi], .idle⟩
  else ⟨ts, .bad⟩

def lexStep (st : Lexer) (b : Byte) : Lexer :=
  match st.mode with
  | .idle => start st.toks b
  | .word acc => if isWordByte b then ⟨st.toks, .word (acc ++ [b])⟩ else start (st.toks ++ [ofWord acc]) b
  | .str acc => if b = quote then ⟨st.toks, .quote acc⟩ else ⟨st.toks, .str (acc ++ [b])⟩
  | .quote acc => if b = quote then ⟨st.toks, .str (acc ++ [b])⟩ else start (st.toks ++ [.str acc]) b
  | .bad => st

def feed (st : Lexer) (s : Bytes) : Lexer := s.foldl lexStep st

/-- The tokens of a whole text, if it ends outside a literal. -/
def lex (s : Bytes) : Option (List Token) :=
  let st := feed ⟨[], .idle⟩ s
  match st.mode with
  | .idle => some st.toks
  | .word acc => some (st.toks ++ [ofWord acc])
  | .quote acc => some (st.toks ++ [.str acc])
  | .str _ | .bad => none

/-! ### The parser -/

def parseConds : List Token → Option (List Eqn)
  | [.ident c, .eq, .str l] => some [⟨c, l⟩]
  | .ident c :: .eq :: .str l :: .kw .AND :: ts => (parseConds ts).map (⟨c, l⟩ :: ·)
  | _ => none

def parseStmt : List Token → Option Stmt
  | .kw .SELECT :: .ident c :: .kw .FROM :: .ident t :: .kw .WHERE :: ts =>
    (parseConds ts).map (.select c t)
  | [.kw .INSERT, .kw .INTO, .ident t, .lpar, .ident c, .rpar, .kw .VALUES, .lpar, .str l, .rpar] =>
    some (.insert t c l)
  | .kw .UPDATE :: .ident t :: .kw .SET :: .ident c :: .eq :: .str l :: .kw .WHERE :: ts =>
    (parseConds ts).map (.update t ⟨c, l⟩)
  | _ => none

/-- The tokens between semicolons. -/
def statements : List Token → List (List Token)
  | [] => [[]]
  | .semi :: ts => [] :: statements ts
  | t :: ts =>
    match statements ts with
    | [] => [[t]]
    | s :: ss => (t :: s) :: ss

/-- The statements of a script. -/
def parse (s : Bytes) : Option (List Stmt) :=
  (lex s).bind fun ts => ((statements ts).filter (!·.isEmpty)).mapM parseStmt

/-! ### The text of a statement -/

def Eqn.text (e : Eqn) : Bytes := e.col ++ ascii " = '" ++ e.lit ++ ascii "'"

def condsText : List Eqn → Bytes
  | [] => []
  | [e] => e.text
  | e :: es => e.text ++ ascii " AND " ++ condsText es

def Stmt.text : Stmt → Bytes
  | .select c t es => ascii "SELECT " ++ c ++ ascii " FROM " ++ t ++ ascii " WHERE " ++ condsText es ++ ascii ";"
  | .insert t c l => ascii "INSERT INTO " ++ t ++ ascii "(" ++ c ++ ascii ") VALUES('" ++ l ++ ascii "');"
  | .update t e es => ascii "UPDATE " ++ t ++ ascii " SET " ++ e.text ++ ascii " WHERE " ++ condsText es ++ ascii ";"

/-- The literals of a statement, in the order of the text. -/
def Stmt.literals : Stmt → List Bytes
  | .select _ _ es => es.map Eqn.lit
  | .insert _ _ l => [l]
  | .update _ e es => e.lit :: es.map Eqn.lit

/-- An identifier: a letter, then letters and digits, and no keyword. -/
structure IsIdent (w : Bytes) : Prop where
  head : ∃ b r, w = b :: r ∧ isLetter b = true ∧ ∀ c ∈ r, isWordByte c = true
  free : keywords.lookup w = none

/-- A literal that can stand between quotes as it is. -/
def Unquoted (l : Bytes) : Prop := quote ∉ l

structure Eqn.Clean (e : Eqn) : Prop where
  col : IsIdent e.col
  lit : Unquoted e.lit

/-- Statements that their text determines. -/
def Stmt.Clean : Stmt → Prop
  | .select c t es => IsIdent c ∧ IsIdent t ∧ es ≠ [] ∧ ∀ e ∈ es, e.Clean
  | .insert t c l => IsIdent t ∧ IsIdent c ∧ Unquoted l
  | .update t e es => IsIdent t ∧ e.Clean ∧ es ≠ [] ∧ ∀ e ∈ es, e.Clean

theorem feed_append (st : Lexer) (s t : Bytes) : feed st (s ++ t) = feed (feed st s) t :=
  List.foldl_append

theorem feed_word {r : Bytes} (h : ∀ c ∈ r, isWordByte c = true) (ts : List Token) :
    ∀ acc, feed ⟨ts, .word acc⟩ r = ⟨ts, .word (acc ++ r)⟩ := by
  induction r with
  | nil => intro acc; simp [feed]
  | cons b r ih =>
    intro acc
    have hb : lexStep ⟨ts, .word acc⟩ b = ⟨ts, .word (acc ++ [b])⟩ := by
      simp only [lexStep, h b (by simp), if_true]
    have hr := ih (fun c hc => h c (List.mem_cons_of_mem _ hc)) (acc ++ [b])
    rw [feed] at hr ⊢
    rw [List.foldl_cons, hb, hr, List.append_assoc, List.singleton_append]

theorem feed_ident {w : Bytes} (h : IsIdent w) (ts : List Token) :
    feed ⟨ts, .idle⟩ w = ⟨ts, .word w⟩ := by
  obtain ⟨b, r, rfl, hb, hr⟩ := h.head
  have hstart : lexStep ⟨ts, .idle⟩ b = ⟨ts, .word [b]⟩ := by
    have h32 : b ≠ 32 := by rintro rfl; exact absurd hb (by decide)
    simp only [lexStep, start, if_neg h32, hb, if_true]
  have := feed_word hr ts [b]
  rw [feed] at this ⊢
  rw [List.foldl_cons, hstart, this, List.singleton_append]

theorem feed_lit {l : Bytes} (h : Unquoted l) (ts : List Token) :
    ∀ acc, feed ⟨ts, .str acc⟩ l = ⟨ts, .str (acc ++ l)⟩ := by
  induction l with
  | nil => intro acc; simp [feed]
  | cons b l ih =>
    intro acc
    rw [Unquoted, List.mem_cons, not_or] at h
    have hb : lexStep ⟨ts, .str acc⟩ b = ⟨ts, .str (acc ++ [b])⟩ := by
      simp only [lexStep, if_neg (Ne.symm h.1)]
    have hr := ih h.2 (acc ++ [b])
    rw [feed] at hr ⊢
    rw [List.foldl_cons, hb, hr, List.append_assoc, List.singleton_append]

theorem ofWord_ident {w : Bytes} (h : IsIdent w) : ofWord w = .ident w := by
  rw [ofWord, h.free]

/-! ### Reading a statement back -/

/-- The lexer has read `ts` before a literal's closing quote and what follows it. -/
def Eqn.toks (e : Eqn) : List Token := [.ident e.col, .eq, .str e.lit]

def condsToks : List Eqn → List Token
  | [] => []
  | [e] => e.toks
  | e :: es => e.toks ++ [.kw .AND] ++ condsToks es

/-- The lexer state after `ts` and a literal just closed. -/
theorem feed_eqn {e : Eqn} (h : e.Clean) (ts : List Token) :
    feed ⟨ts, .idle⟩ e.text = ⟨ts ++ [.ident e.col, .eq], .quote e.lit⟩ := by
  have hop : feed ⟨ts, .word e.col⟩ (ascii " = '") = ⟨ts ++ [ofWord e.col] ++ [.eq], .str []⟩ := rfl
  have hend : ∀ us, feed ⟨us, .str e.lit⟩ (ascii "'") = ⟨us, .quote e.lit⟩ := fun _ => rfl
  rw [Eqn.text, feed_append, feed_append, feed_append, feed_ident h.col, hop, feed_lit h.lit,
    List.nil_append, hend, ofWord_ident h.col, List.append_assoc, List.singleton_append]

/-- A conjunction, up to the semicolon after it. -/
theorem feed_conds : ∀ (es : List Eqn) (ts : List Token), es ≠ [] → (∀ e ∈ es, e.Clean) →
    feed ⟨ts, .idle⟩ (condsText es ++ ascii ";") = ⟨ts ++ condsToks es ++ [.semi], .idle⟩
  | [], _, h, _ => absurd rfl h
  | [e], ts, _, hc => by
    have hend : ∀ us, feed ⟨us, .quote e.lit⟩ (ascii ";") = ⟨us ++ [.str e.lit] ++ [.semi], .idle⟩ :=
      fun _ => rfl
    rw [condsText, feed_append, feed_eqn (hc e (by simp)), hend, condsToks, Eqn.toks]
    simp only [List.append_assoc, List.cons_append, List.nil_append]
  | e :: e' :: es, ts, _, hc => by
    have hand : ∀ us, feed ⟨us, .quote e.lit⟩ (ascii " AND ") = ⟨us ++ [.str e.lit] ++ [.kw .AND], .idle⟩ :=
      fun _ => rfl
    have ih := feed_conds (e' :: es) (ts ++ e.toks ++ [.kw .AND]) (by simp)
      (fun x hx => hc x (List.mem_cons_of_mem _ hx))
    rw [condsText, List.append_assoc, List.append_assoc, feed_append, feed_eqn (hc e (by simp)),
      feed_append, hand]
    rw [Eqn.toks] at ih
    simp only [List.append_assoc, List.cons_append, List.nil_append, condsToks, Eqn.toks] at ih ⊢
    exact ih
    all_goals simp

theorem parseConds_toks : ∀ (es : List Eqn), es ≠ [] → parseConds (condsToks es) = some es
  | [], h => absurd rfl h
  | [e], _ => rfl
  | e :: e' :: es, _ => by
    have ih := parseConds_toks (e' :: es) (by simp)
    have hcons : condsToks (e :: e' :: es)
        = .ident e.col :: .eq :: .str e.lit :: .kw .AND :: condsToks (e' :: es) := rfl
    rw [hcons, parseConds, ih]
    rfl

def Stmt.toks : Stmt → List Token
  | .select c t es => [.kw .SELECT, .ident c, .kw .FROM, .ident t, .kw .WHERE] ++ condsToks es
  | .insert t c l =>
    [.kw .INSERT, .kw .INTO, .ident t, .lpar, .ident c, .rpar, .kw .VALUES, .lpar, .str l, .rpar]
  | .update t e es => [.kw .UPDATE, .ident t, .kw .SET] ++ e.toks ++ [.kw .WHERE] ++ condsToks es

theorem parseStmt_toks : ∀ {s : Stmt}, s.Clean → parseStmt s.toks = some s
  | .select c t es, h => by
    rw [Stmt.toks, List.cons_append, List.cons_append, List.cons_append, List.cons_append,
      List.cons_append, List.nil_append, parseStmt, parseConds_toks es h.2.2.1]
    rfl
  | .insert t c l, _ => rfl
  | .update t e es, h => by
    rw [Stmt.toks, Eqn.toks]
    simp only [List.cons_append, List.nil_append]
    rw [parseStmt, parseConds_toks es h.2.2.1]
    rfl

theorem statements_append_semi : ∀ {ts : List Token}, .semi ∉ ts → statements (ts ++ [.semi]) = [ts, []]
  | [], _ => rfl
  | t :: ts, h => by
    rw [List.mem_cons, not_or] at h
    have ih := statements_append_semi h.2
    rw [List.cons_append]
    cases t <;> first | exact absurd rfl h.1 | rw [statements, ih]; simp

theorem semi_not_mem_conds : ∀ (es : List Eqn), .semi ∉ condsToks es
  | [] => by simp [condsToks]
  | [e] => by simp [condsToks, Eqn.toks]
  | e :: e' :: es => by
    have ih := semi_not_mem_conds (e' :: es)
    simp only [condsToks, Eqn.toks, List.cons_append, List.nil_append, List.mem_cons, not_or]
    exact ⟨by simp, by simp, by simp, by simp, ih⟩

theorem semi_not_mem_toks : ∀ (s : Stmt), .semi ∉ s.toks
  | .select c t es => by simp [Stmt.toks, semi_not_mem_conds es]
  | .insert t c l => by simp [Stmt.toks]
  | .update t e es => by simp [Stmt.toks, Eqn.toks, semi_not_mem_conds es]

theorem feed_text : ∀ {s : Stmt}, s.Clean → feed ⟨[], .idle⟩ s.text = ⟨s.toks ++ [.semi], .idle⟩
  | .select c t es, ⟨hc, ht, hne, hes⟩ => by
    have h₁ : feed ⟨[], .idle⟩ (ascii "SELECT ") = ⟨[.kw .SELECT], .idle⟩ := rfl
    have h₂ : ∀ us, feed ⟨us, .word c⟩ (ascii " FROM ") = ⟨us ++ [ofWord c] ++ [.kw .FROM], .idle⟩ :=
      fun _ => rfl
    have h₃ : ∀ us, feed ⟨us, .word t⟩ (ascii " WHERE ") = ⟨us ++ [ofWord t] ++ [.kw .WHERE], .idle⟩ :=
      fun _ => rfl
    rw [Stmt.text, List.append_assoc]
    simp only [feed_append]
    rw [h₁, feed_ident hc, h₂, feed_ident ht, h₃, ofWord_ident hc, ofWord_ident ht, ← feed_append,
      feed_conds es _ hne hes]
    rfl
  | .insert t c l, ⟨ht, hc, hl⟩ => by
    have h₁ : feed ⟨[], .idle⟩ (ascii "INSERT INTO ") = ⟨[.kw .INSERT, .kw .INTO], .idle⟩ := rfl
    have h₂ : ∀ us, feed ⟨us, .word t⟩ (ascii "(") = ⟨us ++ [ofWord t] ++ [.lpar], .idle⟩ := fun _ => rfl
    have h₃ : ∀ us, feed ⟨us, .word c⟩ (ascii ") VALUES('")
        = ⟨us ++ [ofWord c] ++ [.rpar] ++ [.kw .VALUES] ++ [.lpar], .str []⟩ := fun _ => rfl
    have h₄ : ∀ us, feed ⟨us, .str l⟩ (ascii "');") = ⟨us ++ [.str l] ++ [.rpar] ++ [.semi], .idle⟩ :=
      fun _ => rfl
    rw [Stmt.text]
    simp only [feed_append]
    rw [h₁, feed_ident ht, h₂, feed_ident hc, h₃, feed_lit hl, List.nil_append, h₄, ofWord_ident ht,
      ofWord_ident hc]
    rfl
  | .update t e es, ⟨ht, he, hne, hes⟩ => by
    have h₁ : feed ⟨[], .idle⟩ (ascii "UPDATE ") = ⟨[.kw .UPDATE], .idle⟩ := rfl
    have h₂ : ∀ us, feed ⟨us, .word t⟩ (ascii " SET ") = ⟨us ++ [ofWord t] ++ [.kw .SET], .idle⟩ :=
      fun _ => rfl
    have h₃ : ∀ us, feed ⟨us, .quote e.lit⟩ (ascii " WHERE ")
        = ⟨us ++ [.str e.lit] ++ [.kw .WHERE], .idle⟩ := fun _ => rfl
    rw [Stmt.text, List.append_assoc]
    simp only [feed_append]
    rw [h₁, feed_ident ht, h₂, feed_eqn he, h₃, ofWord_ident ht, ← feed_append,
      feed_conds es _ hne hes]
    rfl

/-- A clean statement is read back from its own text, alone and unchanged. -/
theorem parse_text {s : Stmt} (h : s.Clean) : parse s.text = some [s] := by
  have hlex : lex s.text = some (s.toks ++ [.semi]) := by
    rw [lex, feed_text h]
  have hne : s.toks ≠ [] := by cases s <;> simp [Stmt.toks]
  rw [parse, hlex, Option.bind_some, statements_append_semi (semi_not_mem_toks s)]
  simp [hne, parseStmt_toks h]

end Sql

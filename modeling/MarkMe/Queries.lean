import MarkMe.Session

/-! The statements a session runs.

    `Query` names the statements of the handlers with their arguments. A clean query (its arguments
    are digits, dots and at most one space, and an id is a numeral) is formatted into the text of
    exactly the statement meant, which SQLite reads back as that one statement: `query_text`,
    `query_parse` and `sqlite_query`. `Users.lastAt`, `Users.find` and the updates say what the
    statements do to the table, and `execute_query` is the effect of one `execute` on a session. -/

namespace MarkMe
open Text

inductive Query where
  | selectIdByIp (ip : Bytes)
  | insertIp (ip : Bytes)
  | updatePassword (pass id : Bytes)
  | updateCoordinates (coordinates ip : Bytes)
  | selectCredential (id pass : Bytes)
  | selectCoordinates (id : Bytes)
  deriving DecidableEq

namespace Query

def template : Query → Bytes
  | .selectIdByIp _ => MarkMe.selectIdByIp
  | .insertIp _ => MarkMe.insertIp
  | .updatePassword _ _ => MarkMe.updatePassword
  | .updateCoordinates _ _ => MarkMe.updateCoordinates
  | .selectCredential _ _ => MarkMe.selectCredential
  | .selectCoordinates _ => MarkMe.selectCoordinates

def args : Query → List Bytes
  | .selectIdByIp ip | .insertIp ip => [ip]
  | .updatePassword pass id => [pass, id]
  | .updateCoordinates coordinates ip => [coordinates, ip]
  | .selectCredential id pass => [id, pass]
  | .selectCoordinates id => [id]

/-- The statement meant. -/
def stmt : Query → Sql.Stmt
  | .selectIdByIp ip => .select (ascii "id") (ascii "users") [⟨ascii "ip", ip⟩]
  | .insertIp ip => .insert (ascii "users") (ascii "ip") ip
  | .updatePassword pass id => .update (ascii "users") ⟨ascii "password", pass⟩ [⟨ascii "id", id⟩]
  | .updateCoordinates coordinates ip =>
    .update (ascii "users") ⟨ascii "coordinates", coordinates⟩ [⟨ascii "ip", ip⟩]
  | .selectCredential id pass =>
    .select (ascii "id") (ascii "users") [⟨ascii "id", id⟩, ⟨ascii "password", pass⟩]
  | .selectCoordinates id => .select (ascii "coordinates") (ascii "users") [⟨ascii "id", id⟩]

def text (q : Query) : Bytes := q.stmt.text

/-- What `execute` makes of it. -/
def statement (q : Query) : Statement := ⟨q.template, q.args, q.text⟩

def op : Query → Op
  | .selectIdByIp ip => .select .id [.textIs .ip ip]
  | .insertIp ip => .insert .ip ip
  | .updatePassword pass id => .update .password pass [.idIs (decVal id)]
  | .updateCoordinates coordinates ip => .update .coordinates coordinates [.textIs .ip ip]
  | .selectCredential id pass => .select .id [.idIs (decVal id), .textIs .password pass]
  | .selectCoordinates id => .select (.text .coordinates) [.idIs (decVal id)]

/-- The argument that is compared with the integer column. -/
def idArg : Query → Option Bytes
  | .updatePassword _ id | .selectCredential id _ | .selectCoordinates id => some id
  | _ => none

end Query

/-- The bytes an argument of a statement may have: digits, dots and at most one space. -/
structure SafeArg (a : Bytes) : Prop where
  bytes : ∀ b ∈ a, isDigit b = true ∨ b = 46 ∨ b = 32
  spaces : a.count 32 ≤ 1

structure Query.Clean (q : Query) : Prop where
  args : ∀ a ∈ q.args, SafeArg a
  id : ∀ a ∈ q.idArg, isNumeral a = true

namespace SafeArg

theorem ne_byte {a : Bytes} (h : SafeArg a) {b : Byte} (hb : b ∈ a) : b ≠ Sql.quote ∧ b ≠ 0 := by
  rcases h.bytes b hb with hd | rfl | rfl
  · constructor <;> rintro rfl <;> exact absurd hd (by decide)
  · decide
  · decide

theorem unquoted {a : Bytes} (h : SafeArg a) : Sql.Unquoted a := fun hm => (h.ne_byte hm).1 rfl

theorem no_nul {a : Bytes} (h : SafeArg a) : (0 : Byte) ∉ a := fun hm => (h.ne_byte hm).2 rfl

theorem of_digits_dots {a : Bytes} (h : ∀ b ∈ a, isDigit b = true ∨ b = 46) : SafeArg a where
  bytes b hb := (h b hb).imp_right Or.inl
  spaces := by
    have h0 : a.count 32 = 0 := List.count_eq_zero.mpr fun hm => by
      rcases h 32 hm with h | h <;> exact absurd h (by decide)
    omega

theorem toDec (n : ℕ) : SafeArg (toDec n) := of_digits_dots fun b hb => Or.inl (toDec_digits n b hb)

theorem of_numeral {a : Bytes} (h : isNumeral a = true) : SafeArg a :=
  of_digits_dots fun b hb => Or.inl ((numeral_iff.mp h).2 b hb)

end SafeArg

/-! ### From the template to the statement -/

/-- The template of each query, taken apart at its directives. -/
def Query.pieces : Query → List Format.Piece
  | .selectIdByIp _ => [.lit (ascii "SELECT id FROM users WHERE ip = '"), .arg 0, .lit (ascii "';")]
  | .insertIp _ => [.lit (ascii "INSERT INTO users(ip) VALUES('"), .arg 0, .lit (ascii "');")]
  | .updatePassword _ _ => [.lit (ascii "UPDATE users SET password = '"), .arg 0,
      .lit (ascii "' WHERE id = '"), .arg 1, .lit (ascii "';")]
  | .updateCoordinates _ _ => [.lit (ascii "UPDATE users SET coordinates = '"), .arg 0,
      .lit (ascii "' WHERE ip = '"), .arg 1, .lit (ascii "';")]
  | .selectCredential _ _ => [.lit (ascii "SELECT id FROM users WHERE id = '"), .arg 0,
      .lit (ascii "' AND password = '"), .arg 1, .lit (ascii "';")]
  | .selectCoordinates _ =>
    [.lit (ascii "SELECT coordinates FROM users WHERE id = '"), .arg 0, .lit (ascii "';")]

theorem template_pieces (q : Query) : q.template = Format.template q.pieces := by
  cases q <;> rfl

theorem pieces_fit (q : Query) : Format.Fits q.pieces q.args where
  lits s hs := by
    cases q <;> simp only [Query.pieces, List.mem_cons, Format.Piece.lit.injEq, reduceCtorEq,
      List.not_mem_nil, or_false, false_or] at hs <;> rcases hs with rfl | rfl | rfl <;> decide
  inRange k hk := by
    cases q <;> simp [Query.pieces] at hk <;> simp [Query.args] <;> omega
  used k hk := by
    cases q <;> simp [Query.args] at hk <;> simp [Query.pieces] <;> omega

theorem subst_pieces (q : Query) : Format.subst q.pieces q.args = q.text := by
  have hquote : ascii "';" = ascii "'" ++ ascii ";" := rfl
  cases q <;>
    simp only [Format.subst, Query.pieces, Query.args, List.flatMap_cons, List.flatMap_nil,
      Format.Piece.subst, List.getD_cons_zero, List.getD_cons_succ, Query.text, Query.stmt,
      Sql.Stmt.text, Sql.condsText, Sql.Eqn.text, List.append_assoc, List.append_nil] <;> rfl

/-- Formatting a query's template with its arguments gives the text of the statement meant. -/
theorem query_text (H : Host) (q : Query) :
    SQLDatabase.formatQueryString H q.template q.args = q.text := by
  have hargs : SQLDatabase.formatQueryString H q.template q.args = H.format q.template q.args := by
    cases q <;> rfl
  rw [hargs, template_pieces, H.format_fits (pieces_fit q), subst_pieces]

private theorem ident_of {w : Bytes} (b : Byte) (r : Bytes) (h : w = b :: r) (hb : Sql.isLetter b = true)
    (hr : r.all Sql.isWordByte = true) (hk : Sql.keywords.lookup w = none) : Sql.IsIdent w :=
  ⟨⟨b, r, h, hb, List.all_eq_true.mp hr⟩, hk⟩

theorem ident_names : ∀ w ∈ [ascii "users", ascii "id", ascii "ip", ascii "password", ascii "coordinates"],
    Sql.IsIdent w := by
  intro w hw
  simp only [List.mem_cons, List.not_mem_nil, or_false] at hw
  rcases hw with rfl | rfl | rfl | rfl | rfl
  · exact ident_of 117 (ascii "sers") rfl rfl rfl rfl
  · exact ident_of 105 (ascii "d") rfl rfl rfl rfl
  · exact ident_of 105 (ascii "p") rfl rfl rfl rfl
  · exact ident_of 112 (ascii "assword") rfl rfl rfl rfl
  · exact ident_of 99 (ascii "oordinates") rfl rfl rfl rfl

theorem stmt_clean {q : Query} (h : ∀ a ∈ q.args, SafeArg a) : q.stmt.Clean := by
  have hid := fun w hw => ident_names w hw
  simp only [List.mem_cons, List.not_mem_nil, or_false, forall_eq_or_imp, forall_eq] at hid
  obtain ⟨husers, hid, hip, hpass, hcoord⟩ := hid
  have hlit : ∀ a ∈ q.args, Sql.Unquoted a := fun a ha => (h a ha).unquoted
  cases q <;> simp only [Query.args, List.mem_cons, List.not_mem_nil, or_false, forall_eq_or_imp,
    forall_eq] at hlit
  case selectIdByIp => exact ⟨hid, husers, by simp, by simpa using ⟨hip, hlit⟩⟩
  case insertIp => exact ⟨husers, hip, hlit⟩
  case updatePassword => exact ⟨husers, ⟨hpass, hlit.1⟩, by simp, by simpa using ⟨hid, hlit.2⟩⟩
  case updateCoordinates => exact ⟨husers, ⟨hcoord, hlit.1⟩, by simp, by simpa using ⟨hip, hlit.2⟩⟩
  case selectCredential =>
    refine ⟨hid, husers, by simp, ?_⟩
    simp only [List.mem_cons, List.not_mem_nil, or_false, forall_eq_or_imp, forall_eq]
    exact ⟨⟨hid, hlit.1⟩, ⟨hpass, hlit.2⟩⟩
  case selectCoordinates => exact ⟨hcoord, husers, by simp, by simpa using ⟨hid, hlit⟩⟩

/-- The text of a clean query is that one statement. -/
theorem query_parse {q : Query} (h : ∀ a ∈ q.args, SafeArg a) : Sql.parse q.text = some [q.stmt] :=
  Sql.parse_text (stmt_clean h)

/-- Different clean queries have different texts. -/
theorem text_inj {q q' : Query} (h : ∀ a ∈ q.args, SafeArg a) (h' : ∀ a ∈ q'.args, SafeArg a)
    (heq : q.text = q'.text) : q = q' := by
  have hs : q.stmt = q'.stmt := by
    have := query_parse h
    rw [heq, query_parse h'] at this
    simpa using this.symm
  -- templates of one shape differ in a column name
  have hci : ascii "coordinates" ≠ ascii "id" := by decide
  have hpc : ascii "password" ≠ ascii "coordinates" := by decide
  cases q <;> cases q' <;>
    simp only [Query.stmt, Sql.Stmt.select.injEq, Sql.Stmt.insert.injEq, Sql.Stmt.update.injEq,
      Sql.Eqn.mk.injEq, List.cons.injEq, reduceCtorEq, and_true, true_and, and_false, hci, hci.symm,
      hpc, hpc.symm, false_and] at hs <;> simp [hs]

theorem no_nul_text {q : Query} (h : ∀ a ∈ q.args, SafeArg a) : (0 : Byte) ∉ q.text := by
  have hlit : ∀ a ∈ q.args, (0 : Byte) ∉ a := fun a ha => (h a ha).no_nul
  rw [← subst_pieces, Format.subst, List.mem_flatMap]
  rintro ⟨p, hp, h0⟩
  cases p with
  | lit s =>
    have hs : ∀ s, Format.Piece.lit s ∈ q.pieces → (0 : Byte) ∉ s := by
      intro s hs
      cases q <;> simp only [Query.pieces, List.mem_cons, Format.Piece.lit.injEq, reduceCtorEq,
        List.not_mem_nil, or_false, false_or] at hs <;> rcases hs with rfl | rfl | rfl <;> decide
    exact hs s hp h0
  | arg k =>
    have hk := (pieces_fit q).inRange k hp
    rw [Format.Piece.subst, List.getD_eq_getElem?_getD, List.getElem?_eq_getElem hk, Option.getD_some] at h0
    exact hlit _ (List.getElem_mem hk) h0

theorem columns_names :
    columns.lookup (ascii "id") = some .id ∧ columns.lookup (ascii "ip") = some (.text .ip) ∧
      columns.lookup (ascii "password") = some (.text .password) ∧
      columns.lookup (ascii "coordinates") = some (.text .coordinates) := by
  refine ⟨?_, ?_, ?_, ?_⟩ <;> rfl

theorem query_meaning {q : Query} (h : q.Clean) : meaning q.stmt = some q.op := by
  obtain ⟨hid, hip, hpass, hcoord⟩ := columns_names
  have hnum := h.id
  cases q <;> simp only [Query.idArg, Option.mem_def, Option.some.injEq, forall_eq'] at hnum <;>
    simp [Query.stmt, Query.op, meaning, condOf, textColumn, *]

/-- What SQLite makes of a clean query. -/
theorem sqlite_query (H : Host) {q : Query} (h : q.Clean) (u : Users) :
    H.sqlite q.text u = q.op.eval u :=
  H.sqlite_runs u (query_parse h.args) (query_meaning h)

/-! ### What a query does -/

namespace Query

/-- The table after the query; nothing if SQLite cannot carry it out. -/
def effect (u : Users) : Query → Option Users
  | .insertIp ip => u.addIp ip
  | .updatePassword pass id => some (u.setPassword (decVal id) pass)
  | .updateCoordinates coordinates ip => some (u.setCoordinates ip coordinates)
  | _ => some u

/-- What the callback makes of the last row delivered, if there is one. -/
def answer (u : Users) : Query → Option StrMap
  | .selectIdByIp ip => (u.lastAt ip).map fun v => [(ascii "id", toDec v)]
  | .selectCredential id pass =>
    ((u.find (decVal id)).filter (fun r => r.password == some pass)).map fun r => [(ascii "id", toDec r.id)]
  | .selectCoordinates id =>
    (u.find (decVal id)).map fun r => [(ascii "coordinates", cstr (r.coordinates.getD (ascii "NULL")))]
  | _ => none

end Query

theorem cstr_toDec (n : ℕ) : cstr (toDec n) = toDec n := cstr_eq_self (SafeArg.toDec n).no_nul

/-- The cell of one column in one row, as the callback leaves it. -/
theorem callback_cell (r : User) (c : Column) :
    SQLDatabase.callback [] [(c.name, r.value c)]
      = [[(c.name, cstr ((r.value c).getD (ascii "NULL")))]] := by
  have hname : cstr c.name = c.name := by rcases c with _ | (_ | _ | _) <;> rfl
  rw [SQLDatabase.callback_eq, List.map_cons, List.map_nil, hname]

theorem cell_id (r : User) : cstr ((r.value .id).getD (ascii "NULL")) = toDec r.id := cstr_toDec r.id

/-- Of one column over many rows the last cell stays. -/
theorem deliver_column (results : SQLQueryResults) (c : Column) (rows : List User) :
    SQLDatabase.deliver results (rows.map fun r => [(c.name, r.value c)])
      = (rows.getLast?.map fun r => [[(c.name, cstr ((r.value c).getD (ascii "NULL")))]]).getD results := by
  rw [SQLDatabase.deliver_eq, List.getLast?_map, Option.map_map]
  congr 2
  funext r
  exact callback_cell r c

theorem matching_ip (ip : Bytes) : matching [Cond.textIs .ip ip] = fun r => r.ip == some ip := by
  funext r
  simp [matching, Cond.holds, User.get]

theorem matching_id (v : ℕ) : matching [Cond.idIs v] = fun r => r.id == v := by
  funext r
  simp [matching, Cond.holds]

/-- The credential query selects the row of the id, if it holds the hash. -/
theorem filter_credential (u : Users) (v : ℕ) (pass : Bytes) :
    u.rows.filter (matching [Cond.idIs v, Cond.textIs .password pass])
      = ((u.find v).filter (fun r => r.password == some pass)).toList := by
  have hmatch : matching [Cond.idIs v, Cond.textIs .password pass]
      = fun r => (r.password == some pass) && (r.id == v) := by
    funext r
    simp [matching, Cond.holds, User.get, Bool.and_comm]
  rw [hmatch, ← List.filter_filter, Users.filter_id]
  cases u.find v with
  | none => rfl
  | some r =>
    simp only [Option.toList_some, List.filter_cons, List.filter_nil, Option.filter_some]
    split <;> rfl

theorem getLast_toList {α : Type*} (o : Option α) : o.toList.getLast? = o := by
  cases o <;> rfl

/-- Running a clean query, in terms of its effect and its answer. -/
theorem eval_op (q : Query) (u : Users) (results : SQLQueryResults) :
    (q.effect u = none ∧ ∃ err, q.op.eval u = .error err) ∨
    ∃ u' rows, q.effect u = some u' ∧ q.op.eval u = .ok (u', rows) ∧
      SQLDatabase.deliver results rows = ((q.answer u).map ([·])).getD results := by
  cases q with
  | selectIdByIp ip =>
    refine Or.inr ⟨u, _, rfl, rfl, ?_⟩
    rw [matching_ip, deliver_column, Query.answer, Users.lastAt]
    simp only [cell_id, Option.map_map]
    rfl
  | insertIp ip =>
    by_cases hfull : u.seq < maxRowid
    · exact Or.inr ⟨u.insertRow .ip ip hfull, [], dif_pos hfull, dif_pos hfull, rfl⟩
    · exact Or.inl ⟨dif_neg hfull, fullError, dif_neg hfull⟩
  | updatePassword pass id =>
    exact Or.inr ⟨_, [], rfl, by rw [Query.op, Op.eval, matching_id]; rfl, rfl⟩
  | updateCoordinates coordinates ip =>
    exact Or.inr ⟨_, [], rfl, by rw [Query.op, Op.eval, matching_ip]; rfl, rfl⟩
  | selectCredential id pass =>
    refine Or.inr ⟨u, _, rfl, rfl, ?_⟩
    rw [filter_credential, deliver_column, getLast_toList, Query.answer]
    simp only [cell_id, Option.map_map]
    rfl
  | selectCoordinates id =>
    refine Or.inr ⟨u, _, rfl, rfl, ?_⟩
    rw [matching_id, Users.filter_id, deliver_column, getLast_toList, Query.answer, Option.map_map]
    rfl

end MarkMe

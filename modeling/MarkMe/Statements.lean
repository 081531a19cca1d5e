import MarkMe.Actions

/-! No request alters the SQL that is run.

    There is no escaping: a statement is its template with the arguments pasted in. What keeps it one
    statement is where the arguments come from, and `may_clean` goes through these sources once:
    validated words of the message, the printed address, a printed hash, an id read back from the
    table. Every text in the log of a request is then the text of a clean query. -/

namespace MarkMe
open Text Session

theorem stmt_literals (q : Query) : q.stmt.literals = q.args := by
  cases q <;> rfl

/-- A clean query is its template, filled in. -/
theorem text_fill (q : Query) : q.text = Format.fill q.template q.args := by
  rw [template_pieces, Format.fill_template _ (pieces_fit q), subst_pieces]

theorem text_quotes {q : Query} (h : ∀ a ∈ q.args, SafeArg a) :
    q.text.count Sql.quote = q.template.count Sql.quote := by
  rw [template_pieces, ← subst_pieces]
  exact Format.count_subst (by decide) (by decide) (fun a ha => (h a ha).unquoted) _

namespace Spec
variable {H : Host} {e : Env} {c : Command} {a b : State}

/-- Every permitted statement is clean. -/
theorem may_clean (hc : c.Valid) {q : Query} (h : May H e c a (.run q)) : q.Clean := by
  cases h with
  | lookup => exact ⟨by simpa [Query.args] using address_safe _, by simp [Query.idArg]⟩
  | insert => exact ⟨by simpa [Query.args] using address_safe _, by simp [Query.idArg]⟩
  | commit =>
    exact ⟨by simpa [Query.args] using ⟨hash_safe _, SafeArg.toDec _⟩,
      by simpa [Query.idArg] using toDec_numeral _⟩
  | store _ hs =>
    exact ⟨by simpa [Query.args] using ⟨coordinates_safe (hc.coordinates _ hs), address_safe _⟩,
      by simp [Query.idArg]⟩
  | credential hf =>
    have hid := ((check_friend_iff _ _).mp (hc.credentials _ hf)).1
    exact ⟨by simpa [Query.args] using ⟨SafeArg.of_numeral hid, hash_safe _⟩, by simpa [Query.idArg] using hid⟩
  | read hf =>
    have hid := ((check_friend_iff _ _).mp (hc.credentials _ (credentials_of_friend hf))).1
    exact ⟨by simpa [Query.args] using SafeArg.of_numeral hid, by simpa [Query.idArg] using hid⟩

/-- The log holds clean queries only. -/
theorem calls_clean (hc : c.Valid) (h : Acts H e c a b)
    (ha : ∀ p ∈ a.calls, ∃ q : Query, q.Clean ∧ p.1 = q.statement) :
    ∀ p ∈ b.calls, ∃ q : Query, q.Clean ∧ p.1 = q.statement := by
  refine acts_inv (I := fun a => ∀ p ∈ a.calls, ∃ q : Query, q.Clean ∧ p.1 = q.statement) ?_ h ha
  intro a x hx ih
  cases x with
  | open_ => exact ih
  | send d => exact ih
  | run q =>
    have hq := may_clean hc hx
    rcases run_cases (e := e) q a with ⟨u, -, -, heq⟩ | heq <;> rw [Action.take, heq] <;> intro p hp <;>
      rcases List.mem_append.mp hp with hp | hp
    · exact ih p hp
    · exact ⟨q, hq, by rw [List.mem_singleton.mp hp]⟩
    · exact ih p hp
    · exact ⟨q, hq, by rw [List.mem_singleton.mp hp]⟩

end Spec

/-- Every statement handed to SQLite is a clean query. -/
theorem execs_clean (H : Host) (u : Users) (r : Request) :
    ∀ x ∈ (handleRequest H u r).2.execs, ∃ q : Query, q.Clean ∧ x.toStatement = q.statement := by
  intro x hx
  obtain ⟨a, hacts, -, hcalls, -⟩ := request_acts H u r
  have hmem : x.view ∈ a.calls := hcalls ▸ List.mem_map_of_mem hx
  exact Spec.calls_clean (command_valid r.message) hacts (by simp [Spec.start]) _ hmem

/-- Whatever the message and the failures, a string handed to SQLite is a template of the program
    filled with its arguments, each of digits, dots and at most one space; it holds the quotes of the
    template and no NUL, so SQLite reads all of it, as the one statement meant with the arguments for
    its literals. -/
theorem sql_intact (H : Host) (u : Users) (r : Request) :
    ∀ x ∈ (handleRequest H u r).2.execs, x.sql = Format.fill x.query x.args ∧
      (∀ a ∈ x.args, (∀ b ∈ a, isDigit b = true ∨ b = 46 ∨ b = 32) ∧ a.count 32 ≤ 1) ∧
      x.sql.count Sql.quote = x.query.count Sql.quote ∧ (0 : Byte) ∉ x.sql ∧ cstr x.sql = x.sql ∧
      ∃ q : Query, x.query = q.template ∧ x.args = q.args ∧ Sql.parse x.sql = some [q.stmt] ∧
        q.stmt.literals = x.args := by
  rintro ⟨statement, handle, rc⟩ hx
  obtain ⟨q, hq, hstatement⟩ := execs_clean H u r _ hx
  obtain rfl : statement = q.statement := hstatement
  have hnul : (0 : Byte) ∉ q.text := no_nul_text hq.args
  exact ⟨text_fill q, fun a ha => ⟨(hq.args a ha).bytes, (hq.args a ha).spaces⟩, text_quotes hq.args, hnul,
    cstr_eq_self hnul, q, rfl, rfl, query_parse hq.args, stmt_literals q⟩

/-- The update of a `/store_and_get`. -/
theorem sql_intact_store :
    let sql := ascii "UPDATE users SET coordinates = '1.5 2.5' WHERE ip = '10.0.0.1';"
    sql = Format.fill updateCoordinates [ascii "1.5 2.5", ascii "10.0.0.1"] ∧ (0 : Byte) ∉ sql ∧
      ∃ q : Query, updateCoordinates = q.template ∧ [ascii "1.5 2.5", ascii "10.0.0.1"] = q.args ∧
        Sql.parse sql = some [q.stmt] := by
  intro sql
  have hx : (⟨⟨updateCoordinates, [ascii "1.5 2.5", ascii "10.0.0.1"], sql⟩, some 0, 0⟩ : ExecCall)
      ∈ (handleRequest Host.small Users.empty
        (Request.calm clientA (ascii "/store_and_get 1.5 2.5 1 ab") (by decide))).2.execs := by decide +kernel
  obtain ⟨hfill, -, -, hnul, -, q, hquery, hargs, hparse, -⟩ := sql_intact Host.small Users.empty _ _ hx
  exact ⟨hfill, hnul, q, hquery, hargs, hparse⟩

end MarkMe

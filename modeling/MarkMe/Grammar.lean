import MarkMe.Storage

/-! The grammar of stored data and replies.

    A row holds NULL or a printed hash as its password and NULL or two numbers around a space as its
    coordinates. A reply is one of four fixed words, the id and the password of an `/init`, or stored
    coordinates. Table and replies are settled together: what a reply reveals is what the table
    holds. -/

namespace MarkMe
open Text Session

/-- What the columns of a row may hold. -/
structure User.Good (r : User) : Prop where
  password : ∀ p, r.password = some p → ∃ w : UInt64, p = toDec w.toNat
  coordinates : ∀ s, r.coordinates = some s → IsCoordinates s

/-- What a message with this header may be answered. -/
inductive Reply (header : Bytes) : Bytes → Prop
  | word {d : Bytes} : d ∈ [ascii "ok", ascii "wrong", ascii "err 1", ascii "err 2"] → Reply header d
  | welcome {id pass : Bytes} : header = ascii "/init" → isNumeral id = true → pass.length = 8 →
      (∀ b ∈ pass, isDigit b = true ∨ isLower b = true) → Reply header (id ++ ascii " " ++ pass)
  | coordinates {s : Bytes} : header = ascii "/get" ∨ header = ascii "/store_and_get" → IsCoordinates s →
      Reply header s

theorem good_blank (v : ℕ) (ip : Bytes) : User.Good ⟨v, some ip, none, none⟩ := ⟨by simp, by simp⟩

/-- Coordinates begin with a digit. -/
theorem coordinates_head {s : Bytes} (h : IsCoordinates s) : ∃ b ∈ s.head?, isDigit b = true := by
  obtain ⟨lat, lon, ⟨a, b, ha, -, rfl⟩, -, rfl⟩ := h
  obtain ⟨c, a, rfl, hc⟩ := numeral_head ha
  exact ⟨c, rfl, hc⟩

/-- None of the fixed words can be taken for coordinates. -/
theorem word_not_coordinates {d : Bytes} (hd : d ∈ [ascii "ok", ascii "wrong", ascii "err 1", ascii "err 2"]) :
    ¬ IsCoordinates d := by
  intro h
  obtain ⟨b, hb, hdigit⟩ := coordinates_head h
  simp only [List.mem_cons, List.not_mem_nil, or_false] at hd
  rcases hd with rfl | rfl | rfl | rfl <;> cases hb <;> exact absurd hdigit (by decide)

/-- A reply is neither empty nor the word NULL. -/
theorem reply_ne {header d : Bytes} (h : Reply header d) : d ≠ [] ∧ d ≠ ascii "NULL" := by
  have hdigit : ∀ d : Bytes, (∃ b ∈ d.head?, isDigit b = true) → d ≠ [] ∧ d ≠ ascii "NULL" := by
    rintro d ⟨b, hb, hdigit⟩
    refine ⟨?_, ?_⟩ <;> rintro rfl <;> cases hb
    exact absurd hdigit (by decide)
  cases h with
  | word hd =>
    simp only [List.mem_cons, List.not_mem_nil, or_false] at hd
    rcases hd with rfl | rfl | rfl | rfl <;> decide
  | @welcome id pass _ hid _ _ =>
    refine hdigit _ ?_
    obtain ⟨c, id, rfl, hc⟩ := numeral_head hid
    exact ⟨c, rfl, hc⟩
  | coordinates _ hs => exact hdigit _ (coordinates_head hs)

/-- Only `/get` and `/store_and_get` ask for coordinates. -/
theorem header_friend {r : Request} {f : Bytes × Bytes} (h : r.command.friend = some f) :
    r.header = ascii "/get" ∨ r.header = ascii "/store_and_get" := by
  have hread := reads_message r.message
  rw [Request.command] at h
  generalize MarkMe.command r.message = c at hread h
  cases hread with
  | get hheader _ => exact Or.inl hheader
  | storeAndGet hheader _ _ => exact Or.inr hheader
  | _ => cases h

namespace Spec
variable {H : Host} {e : Env} {a : State}

/-- A permitted statement keeps the rows good. -/
theorem good_run {c : Command} {q : Query} (hc : c.Valid) (hx : May H e c a (.run q))
    (ha : ∀ row ∈ a.users.rows, row.Good) : ∀ row ∈ (a.run e q).users.rows, row.Good := by
  rcases run_cases (e := e) q a with ⟨w, hw, -, heq⟩ | heq <;> rw [heq]
  · intro row hrow
    have hfind : w.find row.id = some row := Users.find_some.mpr ⟨hrow, rfl⟩
    cases hr : a.users.find row.id with
    | none =>
      rcases effect_new hw hr with hnone | ⟨ip, -, hnew⟩
      · rw [hfind] at hnone
        cases hnone
      · rw [Option.some.inj (hfind.symm.trans hnew)]
        exact good_blank _ ip
    | some r =>
      have hmem := (Users.find_some.mp hr).1
      have hgood := ha r hmem
      rw [Option.some.inj (hfind.symm.trans (effect_kept hw hr))]
      rcases may_touch hx hmem with htouch | ⟨ip, -, -, ⟨-, htouch⟩ | ⟨s, hs, htouch⟩⟩ <;> rw [htouch]
      · exact hgood
      · exact ⟨fun p hp => ⟨H.hash (password e), (Option.some.inj hp).symm⟩, hgood.coordinates⟩
      · exact ⟨hgood.password, fun s' hs' => Option.some.inj hs' ▸ hc.coordinates s hs⟩
  · exact ha

/-- Rows stay good and replies stay in the grammar. -/
theorem grammar_acts {r : Request} {u : Users} {b : State} (hu : ∀ row ∈ u.rows, row.Good)
    (h : Acts H e r.command (start u) b) :
    (∀ row ∈ b.users.rows, row.Good) ∧ ∀ s ∈ b.sent, Reply r.header s.data := by
  refine acts_inv (I := fun a => (∀ row ∈ a.users.rows, row.Good) ∧ ∀ s ∈ a.sent, Reply r.header s.data)
    ?_ h ⟨hu, by simp [start]⟩
  rintro a x hx ⟨hgood, hreply⟩
  cases x with
  | open_ => exact ⟨hgood, hreply⟩
  | run q => exact ⟨good_run (command_valid r.message) hx hgood, (run_sent (e := e) q a).symm ▸ hreply⟩
  | send d =>
    refine ⟨hgood, fun s hs => ?_⟩
    rcases List.mem_append.mp hs with hs | hs
    · exact hreply s hs
    rw [List.mem_singleton] at hs
    subst hs
    generalize hcmd : r.command = c at hx
    cases hx with
    | welcome =>
      exact .welcome (header_init.mp hcmd) (toDec_numeral _) (generatePassword_length _ 8)
        (generatePassword_bytes _ 8)
    | verdict hd => exact .word (by rcases hd with rfl | rfl <;> simp)
    | refusal _ hd => exact .word (by rcases hd with rfl | rfl <;> simp)
    | reveal hf hrow hstored =>
      have hcoord := (hgood _ hrow).coordinates _ hstored
      rw [cstr_eq_self (coordinates_safe hcoord).no_nul]
      exact .coordinates (header_friend (hcmd ▸ hf)) hcoord

end Spec

theorem request_grammar (H : Host) {u : Users} (hu : ∀ row ∈ u.rows, row.Good) (r : Request) :
    (∀ row ∈ (handleRequest H u r).1.rows, row.Good) ∧
      ∀ s ∈ (handleRequest H u r).2.sent, Reply r.header s.data := by
  obtain ⟨a, hacts, husers, -, hsent⟩ := request_acts H u r
  rw [husers, hsent]
  exact Spec.grammar_acts hu hacts

theorem run_grammar (H : Host) (reqs : List Request) :
    (∀ row ∈ (tableAfter H reqs).rows, row.Good) ∧
      ∀ ev ∈ historyOf H reqs, ∀ s ∈ ev.out.sent, Reply ev.input.header s.data := by
  refine Machine.history (J := fun h u => (∀ row ∈ Users.rows u, User.Good row) ∧
    ∀ ev ∈ h, ∀ s ∈ Outcome.sent ev.out, Reply (Request.header ev.input) s.data)
    ⟨by simp [Users.empty], by simp⟩ (fun h u r ih => ?_) reqs
  obtain ⟨hrows, hsent⟩ := request_grammar H ih.1 r
  refine ⟨hrows, fun ev hev => ?_⟩
  rcases List.mem_append.mp hev with hev | hev
  · exact ih.2 ev hev
  · rw [List.mem_singleton.mp hev]
    exact hsent

/-- Stored data and replies stay inside the grammar in every run from the empty table. -/
theorem stays_in_grammar (H : Host) (reqs : List Request) :
    ((tableAfter H reqs).rows.map User.id).Nodup ∧
    (∀ row ∈ (tableAfter H reqs).rows,
      (row.password = none ∨ ∃ w : UInt64, row.password = some (toDec w.toNat)) ∧
      (row.coordinates = none ∨ ∃ s, row.coordinates = some s ∧ IsCoordinates s)) ∧
    (∀ ev ∈ historyOf H reqs, ∀ s ∈ ev.out.sent,
      Reply ev.input.header s.data ∧ s.data ≠ [] ∧ s.data ≠ ascii "NULL") ∧
    (∀ d ∈ [ascii "ok", ascii "wrong", ascii "err 1", ascii "err 2"], ¬ IsCoordinates d) := by
  obtain ⟨hgood, hreply⟩ := run_grammar H reqs
  refine ⟨Users.ids_nodup _, fun row hrow => ⟨?_, ?_⟩, fun ev hev s hs => ?_, fun d => word_not_coordinates⟩
  · cases hp : row.password with
    | none => exact Or.inl rfl
    | some p =>
      obtain ⟨w, rfl⟩ := (hgood row hrow).password p hp
      exact Or.inr ⟨w, rfl⟩
  · cases hs : row.coordinates with
    | none => exact Or.inl rfl
    | some s => exact Or.inr ⟨s, rfl, (hgood row hrow).coordinates s hs⟩
  · exact ⟨hreply ev hev s hs, reply_ne (hreply ev hev s hs)⟩

end MarkMe

import Mathlib.Data.List.Perm.Subperm
import MarkMe.Arguments

/-! What the options mean.

    `-srv`, `-db` and `-port` in any order, each at most once, set what they say, except for one kind
    of `-db`: the regex is greedy, so a file name with an `=` in front of its last character goes to
    the name of the option, which nobody recognizes.

        -db=a=b ──regex──▶ name db=a, value b ──▶ "Unrecognized command line option", and on we go -/

namespace MarkMe
open Text

/-- An option with a value that makes sense. -/
inductive Setting where
  | srv (v : Bytes) (positive : isNumeral v = true ∧ 0 < decVal v ∧ decVal v ≤ 2147483647)
  | db (v : CString) (word : v.bytes ≠ [] ∧ ∀ b ∈ v.bytes, isSpace b = false)
  | port (v : Bytes) (range : isNumeral v = true ∧ 1 ≤ decVal v ∧ decVal v ≤ 65535)

namespace Setting

def name : Setting → Bytes
  | srv _ _ => ascii "srv"
  | db _ _ => ascii "db"
  | port _ _ => ascii "port"

def value : Setting → Bytes
  | srv v _ => v
  | db v _ => v.bytes
  | port v _ => v

theorem value_solid (o : Setting) : o.value ≠ [] ∧ ∀ b ∈ o.value, isSpace b = false := by
  cases o with
  | srv v h => exact numeral_solid h.1
  | db v h => exact h
  | port v h => exact numeral_solid h.1

theorem name_mem (o : Setting) : o.name ∈ optionNames := by
  cases o <;> simp [name, optionNames]

theorem named_no_nul (o : Setting) : 0 ∉ named o.name o.value := by
  have hvalue : 0 ∉ o.value := by
    cases o with
    | srv v h => exact not_mem_numeral h.1 rfl
    | db v h => exact v.no_nul
    | port v h => exact not_mem_numeral h.1 rfl
  have hzero : (0 : Byte) ≠ 45 ∧ (0 : Byte) ≠ 61 := by decide
  obtain ⟨-, -, -, hname⟩ := option_name o.name_mem
  rw [named_eq]
  simp [hzero.1, hzero.2, hname, hvalue]

/-- The argument. -/
def arg (o : Setting) : CString := ⟨named o.name o.value, o.named_no_nul⟩

/-- What the program makes of it. -/
def applied (o : Setting) (s : Settings) : Settings :=
  match o with
  | srv v _ => { s with count_servers := decVal v }
  | db v _ => if 61 ∈ v.bytes.dropLast then s else { s with db_filename := v.bytes }
  | port v _ => { s with server_port := decVal v }

/-! ### One option -/

theorem text_solid (o : Setting) : ∀ b ∈ o.name ++ 61 :: o.value, isSpace b = false := by
  have hequals : isSpace 61 = false := by decide
  intro b hb
  rcases List.mem_append.mp hb with hb | hb
  · exact (option_name o.name_mem).2.1 b hb
  · rcases List.mem_cons.mp hb with rfl | hb
    · exact hequals
    · exact o.value_solid.2 b hb

/-- Without an `=` inside, name and value are told apart. -/
theorem arg_match (o : Setting) (h : 61 ∉ o.value.dropLast) :
    argRegex.fullMatch o.arg.bytes = some [o.name, o.value] :=
  arg_iff.mpr ⟨rfl, (option_name o.name_mem).1, o.value_solid.1, o.text_solid, h⟩

/-- With one, a part of the value goes to the name. -/
theorem arg_mismatch (o : Setting) (h : 61 ∈ o.value.dropLast) :
    ∃ n v, argRegex.fullMatch o.arg.bytes = some [n, v] ∧ n ∉ optionNames := by
  obtain ⟨hname, -, hequals, -⟩ := option_name o.name_mem
  obtain ⟨n, v, hmatch⟩ := arg_exists hname o.value_solid.1 o.text_solid
  refine ⟨n, v, hmatch, fun hmem => ?_⟩
  obtain ⟨heq, -, -, -, hlast⟩ := arg_iff.mp hmatch
  rw [named_eq, named_eq, List.cons.injEq] at heq
  rcases Backtrack.split_later heq.2.symm hequals with ⟨-, rfl⟩ | ⟨x, rfl, -⟩
  · exact hlast h
  · exact (option_name hmem).2.2.1 (by simp)

theorem numeral_no_equals {v : Bytes} (h : isNumeral v = true) : 61 ∉ v.dropLast := fun hmem =>
  not_mem_numeral h rfl (List.dropLast_subset _ hmem)

/-- One option is accepted and applied. -/
theorem setup_arg_applied (o : Setting) (s : Setup) :
    (setup_arg o.arg s).2 = true ∧ (setup_arg o.arg s).1.toSettings = o.applied s.toSettings := by
  rw [setup_arg]
  cases o with
  | srv v h =>
    have hread : stoi v = .ok (decVal v) := by rw [stoi_numeral h.1, if_neg (by omega)]
    rw [arg_match (srv v h) (numeral_no_equals h.1)]
    simp only [name, value, set_arg_srv hread (by omega)]
    exact ⟨trivial, rfl⟩
  | db v h =>
    by_cases hequals : 61 ∈ v.bytes.dropLast
    · obtain ⟨n, w, hmatch, hunrecognized⟩ := arg_mismatch (db v h) hequals
      rw [hmatch]
      simp only [applied, if_pos hequals]
      exact set_arg_unrecognized hunrecognized w s
    · rw [arg_match (db v h) hequals]
      simp [name, value, set_arg_db, applied, hequals]
  | port v h =>
    have hread : stoi v = .ok (decVal v) := by rw [stoi_numeral h.1, if_neg (by omega)]
    rw [arg_match (port v h) (numeral_no_equals h.1)]
    simp only [name, value, set_arg_port hread (by omega)]
    exact ⟨trivial, rfl⟩

/-! ### All options -/

theorem setup_loop_applied : ∀ (opts : List Setting) (s : Setup),
    (setup_loop (opts.map arg) s).2 = true ∧
      (setup_loop (opts.map arg) s).1.toSettings = opts.foldl (fun s o => o.applied s) s.toSettings
  | [], _ => ⟨rfl, rfl⟩
  | o :: opts, s => by
    obtain ⟨hok, hset⟩ := setup_arg_applied o s
    rw [List.map_cons, setup_loop, List.foldl_cons, ← hset]
    simp only [hok, if_true]
    exact setup_loop_applied opts _

section
variable {β : Type*} {f : Settings → β} {n : Bytes}

/-- Options of other names leave a setting as it is. -/
theorem fold_kept (hf : ∀ (o : Setting) s, o.name ≠ n → f (o.applied s) = f s) :
    ∀ {opts : List Setting} {s : Settings}, (∀ o ∈ opts, o.name ≠ n) →
      f (opts.foldl (fun s o => o.applied s) s) = f s
  | [], _, _ => rfl
  | o :: opts, s, h => by
    rw [List.forall_mem_cons] at h
    rw [List.foldl_cons, fold_kept hf h.2, hf o s h.1]

/-- The one option of a name sets it. -/
theorem fold_set (hf : ∀ (o : Setting) s, o.name ≠ n → f (o.applied s) = f s) {opts : List Setting}
    (hnames : (opts.map name).Nodup) {o : Setting} (ho : o ∈ opts) (hname : o.name = n) (s : Settings) :
    ∃ s', f s' = f s ∧ f (opts.foldl (fun s o => o.applied s) s) = f (o.applied s') := by
  obtain ⟨before, after, rfl⟩ := List.append_of_mem ho
  rw [List.map_append, List.map_cons, List.nodup_append, List.nodup_cons] at hnames
  obtain ⟨-, ⟨hafter, -⟩, hbefore⟩ := hnames
  have hothers : ∀ o' ∈ after, o'.name ≠ n := fun o' ho' heq =>
    hafter (List.mem_map.mpr ⟨o', ho', heq.trans hname.symm⟩)
  have hothers' : ∀ o' ∈ before, o'.name ≠ n := fun o' ho' heq =>
    hbefore o'.name (List.mem_map_of_mem ho') o.name (by simp) (heq.trans hname.symm)
  refine ⟨before.foldl (fun s o => o.applied s) s, fold_kept hf hothers', ?_⟩
  rw [List.foldl_append, List.foldl_cons, fold_kept hf hothers]

end

/-- Options with different names are three at most. -/
theorem length_le {opts : List Setting} (hnames : (opts.map name).Nodup) : opts.length ≤ 3 := by
  have hsub : opts.map name ⊆ optionNames := fun n hn => by
    obtain ⟨o, -, rfl⟩ := List.mem_map.mp hn
    exact o.name_mem
  have hle := (hnames.subperm hsub).length_le
  rwa [List.length_map] at hle

theorem setup_args_applied {opts : List Setting} (hnames : (opts.map name).Nodup) (s : Setup) :
    (setup_args (opts.map arg) s).2 = true ∧
      (setup_args (opts.map arg) s).1.toSettings = opts.foldl (fun s o => o.applied s) s.toSettings := by
  have hle := length_le hnames
  rw [setup_args, if_neg (by rw [List.length_map]; omega)]
  exact setup_loop_applied opts s

/-! ### Which option changes what -/

theorem srv_only (o : Setting) (s : Settings) (h : o.name ≠ ascii "srv") :
    (o.applied s).count_servers = s.count_servers := by
  cases o with
  | srv v hv => exact absurd rfl h
  | db v hv => rw [applied]; split <;> rfl
  | port v hv => rfl

theorem db_only (o : Setting) (s : Settings) (h : o.name ≠ ascii "db") :
    (o.applied s).db_filename = s.db_filename := by
  cases o with
  | srv v hv => rfl
  | db v hv => exact absurd rfl h
  | port v hv => rfl

theorem port_only (o : Setting) (s : Settings) (h : o.name ≠ ascii "port") :
    (o.applied s).server_port = s.server_port := by
  cases o with
  | srv v hv => rfl
  | db v hv => rw [applied]; split <;> rfl
  | port v hv => exact absurd rfl h

end Setting

/-- From `s` to `t` the named settings are set to their values, and the others are left alone. -/
structure Means (opts : List Setting) (s t : Settings) : Prop where
  srv : ∀ v h, .srv v h ∈ opts → t.count_servers = decVal v
  db : ∀ v h, .db v h ∈ opts → t.db_filename = v.bytes
  port : ∀ v h, .port v h ∈ opts → t.server_port = decVal v
  srv_kept : (∀ o ∈ opts, o.name ≠ ascii "srv") → t.count_servers = s.count_servers
  db_kept : (∀ o ∈ opts, o.name ≠ ascii "db") → t.db_filename = s.db_filename
  port_kept : (∀ o ∈ opts, o.name ≠ ascii "port") → t.server_port = s.server_port

/-- What becomes of a `-db`. -/
theorem db_applied {opts : List Setting} (hnames : (opts.map Setting.name).Nodup) {v : CString}
    {h : v.bytes ≠ [] ∧ ∀ b ∈ v.bytes, isSpace b = false} (hmem : .db v h ∈ opts) (s : Settings) :
    (opts.foldl (fun s o => o.applied s) s).db_filename
      = if 61 ∈ v.bytes.dropLast then s.db_filename else v.bytes := by
  obtain ⟨s', hsame, hset⟩ := Setting.fold_set Setting.db_only hnames hmem rfl s
  rw [hset, Setting.applied, ← hsame]
  split <;> rfl

/-- Options with different names are accepted and mean what they say exactly if no `-db` has an `=` in
    front of its last byte, or that one is the file name anyway. -/
theorem options_mean_iff (opts : List Setting) (hnames : (opts.map Setting.name).Nodup) (s : Setup) :
    ((setup_args (opts.map Setting.arg) s).2 = true ∧
        Means opts s.toSettings (setup_args (opts.map Setting.arg) s).1.toSettings)
      ↔ ∀ v h, .db v h ∈ opts → 61 ∉ v.bytes.dropLast ∨ v.bytes = s.db_filename := by
  obtain ⟨hok, hset⟩ := Setting.setup_args_applied hnames s
  rw [hset]
  constructor
  · rintro ⟨-, hmeans⟩ v h hmem
    have hdb := hmeans.db v h hmem
    rw [db_applied hnames hmem] at hdb
    split at hdb
    · exact Or.inr hdb.symm
    · exact Or.inl ‹_›
  · intro hplain
    refine ⟨hok, fun v h hmem => ?_, fun v h hmem => ?_, fun v h hmem => ?_, ?_, ?_, ?_⟩
    · obtain ⟨s', -, hsrv⟩ := Setting.fold_set Setting.srv_only hnames hmem rfl s.toSettings
      exact hsrv
    · rw [db_applied hnames hmem]
      split
      · exact ((hplain v h hmem).resolve_left (not_not_intro ‹_›)).symm
      · rfl
    · obtain ⟨s', -, hport⟩ := Setting.fold_set Setting.port_only hnames hmem rfl s.toSettings
      exact hport
    · exact fun hothers => Setting.fold_kept Setting.srv_only hothers
    · exact fun hothers => Setting.fold_kept Setting.db_only hothers
    · exact fun hothers => Setting.fold_kept Setting.port_only hothers

/-- A port and a file name, in this order. -/
theorem options_mean_two :
    let opts : List Setting := [.port (ascii "80") (by decide), .db ⟨ascii "a.db=", by decide⟩ ⟨by decide, solid_of_all rfl⟩]
    Means opts Settings.initial (setup_args (opts.map Setting.arg) Settings.initial.silent).1.toSettings := by
  intro opts
  refine ((options_mean_iff opts (by decide) Settings.initial.silent).mpr fun v h hmem => Or.inl ?_).2
  simp only [opts, List.mem_cons, List.not_mem_nil, or_false, reduceCtorEq, false_or, Setting.db.injEq] at hmem
  rw [hmem]
  decide

/-- `-db=a=b` is accepted, and the file name stays as it was. -/
theorem options_misread :
    let opts : List Setting := [.db ⟨ascii "a=b", by decide⟩ ⟨by decide, solid_of_all rfl⟩]
    (opts.map Setting.name).Nodup ∧ (setup_args (opts.map Setting.arg) Settings.initial.silent).2 = true ∧
      (setup_args (opts.map Setting.arg) Settings.initial.silent).1.db_filename = ascii "users.db" ∧
      ¬ Means opts Settings.initial (setup_args (opts.map Setting.arg) Settings.initial.silent).1.toSettings := by
  intro opts
  have hname : (setup_args (opts.map Setting.arg) Settings.initial.silent).1.db_filename = ascii "users.db" := by
    decide
  refine ⟨by decide, by decide, hname, fun hmeans => ?_⟩
  have hset := hmeans.db _ _ (List.mem_singleton_self _)
  rw [hname] at hset
  revert hset
  decide

end MarkMe

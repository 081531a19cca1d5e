import MarkMe.Program

/-! What becomes of a command line.

    Every argument says one thing, which its bytes decide: it is taken apart at the last `=` that
    leaves a value, and a number is what stands in front of the first byte that is no digit. The first
    argument that will not do ends the reading, after it has set what it sets and been complained
    about; of the arguments heard until then the last one of a kind counts.

        -srv=2   -port=0x50    -foo=1        -db=a=b         -port=-1        -srv=two
        2        0             who is foo?   who is db=a?    -1, refused     no number, refused -/

namespace MarkMe
open Text

/-! ### What an argument says -/

/-- `-name=value`, taken apart at the last `=` that leaves a value. -/
structure Splits (arg name value : Bytes) : Prop where
  eq : arg = named name value
  name_ne : name ≠ []
  value_ne : value ≠ []
  solid : ∀ b ∈ name ++ value, isSpace b = false
  last : 61 ∉ value.dropLast

/-- The number that `v` begins with: a sign or none, and all the digits behind it. -/
inductive Figure : Bytes → ℤ → Prop
  | plain {digits rest : Bytes} : isNumeral digits = true → (∀ b ∈ rest.head?, isDigit b = false) →
      Figure (digits ++ rest) (decVal digits)
  | plus {digits rest : Bytes} : isNumeral digits = true → (∀ b ∈ rest.head?, isDigit b = false) →
      Figure (ascii "+" ++ (digits ++ rest)) (decVal digits)
  | minus {digits rest : Bytes} : isNumeral digits = true → (∀ b ∈ rest.head?, isDigit b = false) →
      Figure (ascii "-" ++ (digits ++ rest)) (-decVal digits)

/-- A number of type `int` in front of `v`. -/
structure Counts (v : Bytes) (n : ℤ) : Prop where
  figure : Figure v n
  low : -2147483648 ≤ n
  high : n ≤ 2147483647

inductive Reading where
  | srv (n : ℤ)
  | noCount
  | db (file : Bytes)
  | port (n : ℤ)
  | noPort
  | unrecognized (name : Bytes)
  | invalid (arg : Bytes)

/-- What an argument says. -/
inductive Conveys (arg : Bytes) : Reading → Prop
  | srv {v : Bytes} {n : ℤ} : Splits arg (ascii "srv") v → Counts v n → Conveys arg (.srv n)
  | noCount {v : Bytes} : Splits arg (ascii "srv") v → (∀ n, ¬ Counts v n) → Conveys arg .noCount
  | db {v : Bytes} : Splits arg (ascii "db") v → Conveys arg (.db v)
  | port {v : Bytes} {n : ℤ} : Splits arg (ascii "port") v → Counts v n → Conveys arg (.port n)
  | noPort {v : Bytes} : Splits arg (ascii "port") v → (∀ n, ¬ Counts v n) → Conveys arg .noPort
  | unrecognized {name v : Bytes} : Splits arg name v → name ∉ optionNames → Conveys arg (.unrecognized name)
  | invalid : (∀ name v, ¬ Splits arg name v) → Conveys arg (.invalid arg)

namespace Reading

/-- The program does not start with it. -/
@[simp] def refused : Reading → Bool
  | .srv n => n ≤ 0
  | .port n => n < 0
  | .noCount | .noPort | .invalid _ => true
  | .db _ | .unrecognized _ => false

@[simp] def countSet : Reading → Option ℤ
  | .srv n => some n
  | _ => none

@[simp] def fileSet : Reading → Option Bytes
  | .db file => some file
  | _ => none

@[simp] def portSet : Reading → Option ℤ
  | .port n => some n
  | _ => none

/-- The line that goes to `cerr`. -/
@[simp] def complaint : Reading → Option Bytes
  | .srv n => if n ≤ 0 then some (ascii "Error: Count of servers must be POSITIVE integer.") else none
  | .noCount => some (ascii "Error: Count of servers must be positive integer.")
  | .db _ => none
  | .port n => if n < 0 then some (ascii "Error: Server port must be POSITIVE integer.") else none
  | .noPort => some (ascii "Error: Server port must be positive integer.")
  | .unrecognized name => some (ascii "Unrecognized command line option: \"" ++ name ++ ascii "\"  :[")
  | .invalid arg => some (ascii "Error: Invalid argument format: \"" ++ arg ++ ascii "\" :(")

/-- What goes to `cout`. -/
@[simp] def help : Reading → List Bytes
  | .unrecognized _ =>
    [ascii "Options:\n\t-srv=[positive integer]\t\tCount of servers.",
      ascii "\t-db=[filename]\t\tName of file where database is stored.\n"]
  | _ => []

end Reading

/-- The readings up to the first that is refused. -/
def heard : List Reading → List Reading
  | [] => []
  | r :: rs => if r.refused then [r] else r :: heard rs

/-- The variables once `rs` have been heard, and all that has been printed. -/
def Setup.told (s : Setup) (rs : List Reading) : Setup where
  count_servers := (rs.filterMap Reading.countSet).getLastD s.count_servers
  db_filename := (rs.filterMap Reading.fileSet).getLastD s.db_filename
  server_port := (rs.filterMap Reading.portSet).getLastD s.server_port
  cerr := s.cerr ++ rs.filterMap Reading.complaint
  cout := s.cout ++ rs.flatMap Reading.help

/-- What an argument says, worked out. -/
def reading (arg : Bytes) : Reading :=
  match argRegex.fullMatch arg with
  | some [name, v] =>
    if name = ascii "srv" then
      match stoi v with
      | .ok n => .srv n
      | .error _ => .noCount
    else if name = ascii "db" then .db v
    else if name = ascii "port" then
      match stoi v with
      | .ok n => .port n
      | .error _ => .noPort
    else .unrecognized name
  | _ => .invalid arg

/-- How `main` comes to its loop, or does not, with arguments that say `rs`. -/
inductive Begun (rs : List Reading) (o : OpenOutcome) (create : Option SqlError) (db : Database) :
    Setup × Except ℤ Ready → Prop
  | tooMany : 3 < rs.length →
      Begun rs o create db ((Settings.initial.silent.error (ascii "It's too many command line options.")).error
        (ascii "Unable to setup command line arguments!"), .error 1)
  | refused : rs.length ≤ 3 → (∃ r ∈ rs, r.refused = true) →
      Begun rs o create db ((Settings.initial.silent.told (heard rs)).error
        (ascii "Unable to setup command line arguments!"), .error 1)
  | unopened {s : Setup} : rs.length ≤ 3 → (∀ r ∈ rs, r.refused = false) →
      s = Settings.initial.silent.told rs → o ≠ .ok →
      Begun rs o create db
        (s.error (ascii "Unable to connect to the database!\nFilename: " ++ s.db_filename), .error 2)
  | ready {s : Setup} {R : Ready} : rs.length ≤ 3 → (∀ r ∈ rs, r.refused = false) →
      s = Settings.initial.silent.told rs → o = .ok → R.toSettings = s.toSettings →
      R.database = (if s.db_filename = memoryName then none
        else if create.isNone then some (db.getD .empty) else db) →
      Begun rs o create db (s, .ok R)

/-! ### Taking an argument apart -/

theorem splits_iff {arg name v : Bytes} : Splits arg name v ↔ argRegex.fullMatch arg = some [name, v] := by
  have hequals : isSpace 61 = false := by decide
  rw [arg_iff]
  constructor
  · intro h
    refine ⟨h.eq, h.name_ne, h.value_ne, fun b hb => ?_, h.last⟩
    rcases List.mem_append.mp hb with hname | hrest
    · exact h.solid b (List.mem_append_left _ hname)
    · rcases List.mem_cons.mp hrest with rfl | hvalue
      · exact hequals
      · exact h.solid b (List.mem_append_right _ hvalue)
  · rintro ⟨heq, hname, hvalue, hsolid, hlast⟩
    refine ⟨heq, hname, hvalue, fun b hb => hsolid b ?_, hlast⟩
    rcases List.mem_append.mp hb with h | h
    · exact List.mem_append_left _ h
    · exact List.mem_append_right _ (List.mem_cons_of_mem _ h)

/-! ### The number in front -/

/-- `stoi` takes the sign off. -/
theorem sign_plus (w : Bytes) : sign (ascii "+" ++ w) = (false, w) := rfl

theorem sign_minus (w : Bytes) : sign (ascii "-" ++ w) = (true, w) := rfl

theorem sign_digits {digits : Bytes} (hnum : isNumeral digits = true) (rest : Bytes) :
    sign (digits ++ rest) = (false, digits ++ rest) := by
  obtain ⟨b, w, rfl, hb⟩ := numeral_head hnum
  have hminus : b ≠ 45 := by
    rintro rfl
    cases hb
  have hplus : b ≠ 43 := by
    rintro rfl
    cases hb
  simp [sign, hminus, hplus]

/-- All the digits and no more. -/
theorem digits_run {digits rest : Bytes} (hnum : isNumeral digits = true)
    (hend : ∀ b ∈ rest.head?, isDigit b = false) : (digits ++ rest).takeWhile isDigit = digits := by
  rw [List.takeWhile_append_of_pos (numeral_iff.mp hnum).2]
  cases rest with
  | nil => simp
  | cons b w => simp [hend b (by simp)]

/-- `stoi` behind the white space and the sign. -/
theorem stoi_signed {v w : Bytes} {negative : Bool} (hsolid : ∀ b ∈ v, isSpace b = false)
    (hsign : sign v = (negative, w)) (n : ℤ) :
    stoi v = .ok n ↔ w.takeWhile isDigit ≠ [] ∧
      n = (if negative then -(decVal (w.takeWhile isDigit) : ℤ) else decVal (w.takeWhile isDigit)) ∧
      -2147483648 ≤ n ∧ n ≤ 2147483647 := by
  have hspace : v.dropWhile isSpace = v := by
    cases v with
    | nil => rfl
    | cons b w => simp [hsolid b (by simp)]
  rw [stoi, hspace, hsign]
  dsimp only
  by_cases hnone : w.takeWhile isDigit = []
  · rw [if_pos hnone]
    constructor
    · intro h
      cases h
    · rintro ⟨hsome, -⟩
      exact absurd hnone hsome
  · rw [if_neg hnone]
    generalize (if negative = true then -(decVal (w.takeWhile isDigit) : ℤ) else decVal (w.takeWhile isDigit)) = m
    by_cases hrange : m < -2147483648 ∨ 2147483647 < m
    · rw [if_pos hrange]
      constructor
      · intro h
        cases h
      · rintro ⟨-, heq, hlow, hhigh⟩
        omega
    · rw [if_neg hrange]
      constructor
      · intro h
        cases h
        exact ⟨hnone, rfl, by omega, by omega⟩
      · rintro ⟨-, rfl, -⟩
        rfl

/-- `stoi` reads a figure that fits into an `int`, and fails where there is none. -/
theorem stoi_iff {v : Bytes} (hsolid : ∀ b ∈ v, isSpace b = false) (n : ℤ) : stoi v = .ok n ↔ Counts v n := by
  constructor
  · intro h
    rcases hsign : sign v with ⟨negative, w⟩
    obtain ⟨hdigits, heq, hlow, hhigh⟩ := (stoi_signed hsolid hsign n).mp h
    refine ⟨?_, hlow, hhigh⟩
    -- the digits, and what is behind them
    have hnum : isNumeral (w.takeWhile isDigit) = true :=
      numeral_iff.mpr ⟨hdigits, fun b hb => List.mem_takeWhile_imp hb⟩
    have hend : ∀ b ∈ (w.dropWhile isDigit).head?, isDigit b = false := fun b hb => by
      have := List.head?_dropWhile_not isDigit w
      rw [Option.mem_def.mp hb] at this
      simpa using this
    rw [heq]
    rw [sign] at hsign
    split at hsign
    · rename_i hminus
      cases hsign
      have hfigure := Figure.minus hnum hend
      rw [List.takeWhile_append_dropWhile] at hfigure
      exact List.cons_head?_tail hminus ▸ hfigure
    · split at hsign
      · rename_i hplus
        cases hsign
        have hfigure := Figure.plus hnum hend
        rw [List.takeWhile_append_dropWhile] at hfigure
        exact List.cons_head?_tail hplus ▸ hfigure
      · cases hsign
        have hfigure := Figure.plain hnum hend
        rwa [List.takeWhile_append_dropWhile] at hfigure
  · rintro ⟨hfigure, hlow, hhigh⟩
    cases hfigure with
    | plain hnum hend =>
      rw [stoi_signed hsolid (sign_digits hnum _), digits_run hnum hend]
      exact ⟨(numeral_iff.mp hnum).1, rfl, hlow, hhigh⟩
    | plus hnum hend =>
      rw [stoi_signed hsolid (sign_plus _), digits_run hnum hend]
      exact ⟨(numeral_iff.mp hnum).1, rfl, hlow, hhigh⟩
    | minus hnum hend =>
      rw [stoi_signed hsolid (sign_minus _), digits_run hnum hend]
      exact ⟨(numeral_iff.mp hnum).1, rfl, hlow, hhigh⟩

/-- The value of a split argument is solid, so `stoi` reads what it counts. -/
theorem Splits.stoi_ok {arg name v : Bytes} (h : Splits arg name v) (n : ℤ) : stoi v = .ok n ↔ Counts v n :=
  stoi_iff (fun b hb => h.solid b (List.mem_append_right _ hb)) n

theorem Splits.stoi_error {arg name v : Bytes} (h : Splits arg name v) (hnone : ∀ n, ¬ Counts v n) :
    ∃ err, stoi v = .error err := by
  cases hread : stoi v with
  | error err => exact ⟨err, rfl⟩
  | ok n => exact absurd ((h.stoi_ok n).mp hread) (hnone n)

/-! ### One argument -/

section
variable {arg : Bytes} {r r' : Reading}

/-- An argument that is taken apart no way. -/
theorem fullMatch_unsplit (hnone : ∀ name v, ¬ Splits arg name v) (name v : Bytes) :
    argRegex.fullMatch arg ≠ some [name, v] := fun h => hnone _ _ (splits_iff.mpr h)

/-- Every argument says something. -/
theorem exists_conveys (arg : Bytes) : ∃ r, Conveys arg r := by
  by_cases hsplit : ∃ name v, Splits arg name v
  · obtain ⟨name, v, hsplit⟩ := hsplit
    by_cases hsrv : name = ascii "srv"
    · subst hsrv
      by_cases hcount : ∃ n, Counts v n
      · obtain ⟨n, hn⟩ := hcount
        exact ⟨_, .srv hsplit hn⟩
      · exact ⟨_, .noCount hsplit (not_exists.mp hcount)⟩
    by_cases hport : name = ascii "port"
    · subst hport
      by_cases hcount : ∃ n, Counts v n
      · obtain ⟨n, hn⟩ := hcount
        exact ⟨_, .port hsplit hn⟩
      · exact ⟨_, .noPort hsplit (not_exists.mp hcount)⟩
    by_cases hdb : name = ascii "db"
    · subst hdb
      exact ⟨_, .db hsplit⟩
    · exact ⟨_, .unrecognized hsplit (by simp [optionNames, hsrv, hdb, hport])⟩
  · exact ⟨_, .invalid fun name v h => hsplit ⟨name, v, h⟩⟩

/-- And nothing else. -/
theorem reading_eq (h : Conveys arg r) : reading arg = r := by
  have hdb : ascii "db" ≠ ascii "srv" := by decide
  have hport : ascii "port" ≠ ascii "srv" ∧ ascii "port" ≠ ascii "db" := by decide
  cases h with
  | srv hsplit hn =>
    rw [reading, splits_iff.mp hsplit]
    simp only [if_pos, (hsplit.stoi_ok _).mpr hn]
  | noCount hsplit hnone =>
    obtain ⟨err, herr⟩ := hsplit.stoi_error hnone
    rw [reading, splits_iff.mp hsplit]
    simp only [if_pos, herr]
  | db hsplit =>
    rw [reading, splits_iff.mp hsplit]
    simp only [if_neg hdb, if_pos]
  | port hsplit hn =>
    rw [reading, splits_iff.mp hsplit]
    simp only [if_neg hport.1, if_neg hport.2, if_pos, (hsplit.stoi_ok _).mpr hn]
  | noPort hsplit hnone =>
    obtain ⟨err, herr⟩ := hsplit.stoi_error hnone
    rw [reading, splits_iff.mp hsplit]
    simp only [if_neg hport.1, if_neg hport.2, if_pos, herr]
  | unrecognized hsplit hname =>
    simp only [optionNames, List.mem_cons, List.not_mem_nil, or_false, not_or] at hname
    rw [reading, splits_iff.mp hsplit]
    simp only [if_neg hname.1, if_neg hname.2.1, if_neg hname.2.2]
  | invalid hnone =>
    rw [reading]
    split
    · rename_i h
      exact absurd h (fullMatch_unsplit hnone _ _)
    · rfl

theorem conveys_iff : Conveys arg r ↔ r = reading arg := by
  constructor
  · exact fun h => (reading_eq h).symm
  · rintro rfl
    obtain ⟨r, hr⟩ := exists_conveys arg
    rwa [reading_eq hr]

example : reading (ascii "-db=a=b") = .unrecognized (ascii "db=a") := rfl

/-- One reading more, field by field. -/
theorem Setup.told_one (s : Setup) (r : Reading) : s.told [r] =
    { count_servers := r.countSet.getD s.count_servers
      db_filename := r.fileSet.getD s.db_filename
      server_port := r.portSet.getD s.server_port
      cerr := s.cerr ++ r.complaint.toList
      cout := s.cout ++ r.help } := by
  have hone : ∀ {α : Type} (f : Reading → Option α), [r].filterMap f = (f r).toList := fun f => by
    cases h : f r <;> simp [h]
  have hlast : ∀ {α : Type} (o : Option α) (d : α), o.toList.getLastD d = o.getD d := fun o d => by
    cases o <;> rfl
  rw [told, hone, hone, hone, hone, hlast, hlast, hlast, List.flatMap_singleton]

/-- The loop does with an argument what it says. -/
theorem setup_arg_told {argv : CString} (h : Conveys argv.bytes r) (s : Setup) :
    setup_arg argv s = (s.told [r], !r.refused) := by
  have hsplits : ∀ {name v}, Splits argv.bytes name v → setup_arg argv s = set_arg name v s := fun hsplit => by
    rw [setup_arg, splits_iff.mp hsplit]
  have hdb : ascii "db" ≠ ascii "srv" := by decide
  have hport : ascii "port" ≠ ascii "srv" ∧ ascii "port" ≠ ascii "db" := by decide
  rw [Setup.told_one]
  cases h with
  | @srv v n hsplit hn =>
    rw [hsplits hsplit, set_arg, if_pos rfl, (hsplit.stoi_ok _).mpr hn]
    by_cases hpos : n ≤ 0
    · simp [hpos, Setup.error]
    · simp [hpos]
  | noCount hsplit hnone =>
    obtain ⟨err, herr⟩ := hsplit.stoi_error hnone
    rw [hsplits hsplit, set_arg, if_pos rfl, herr]
    simp [Setup.error]
  | db hsplit =>
    rw [hsplits hsplit, set_arg, if_neg hdb, if_pos rfl]
    simp
  | @port v n hsplit hn =>
    rw [hsplits hsplit, set_arg, if_neg hport.1, if_neg hport.2, if_pos rfl, (hsplit.stoi_ok _).mpr hn]
    by_cases hpos : n < 0
    · simp [hpos, Setup.error]
    · simp [hpos]
  | noPort hsplit hnone =>
    obtain ⟨err, herr⟩ := hsplit.stoi_error hnone
    rw [hsplits hsplit, set_arg, if_neg hport.1, if_neg hport.2, if_pos rfl, herr]
    simp [Setup.error]
  | unrecognized hsplit hname =>
    simp only [optionNames, List.mem_cons, List.not_mem_nil, or_false, not_or] at hname
    rw [hsplits hsplit, set_arg, if_neg hname.1, if_neg hname.2.1, if_neg hname.2.2]
    simp [Setup.error, Setup.print_help]
  | invalid hnone =>
    rw [setup_arg]
    split
    · rename_i h
      exact absurd h (fullMatch_unsplit hnone _ _)
    · simp [Setup.error]

end

/-! ### The loop -/

/-- The arguments of a command line say one thing each. -/
theorem conveys_all_iff (args : List CString) (rs : List Reading) :
    List.Forall₂ (fun argv r => Conveys argv.bytes r) args rs ↔ rs = args.map fun argv => reading argv.bytes := by
  induction args generalizing rs with
  | nil => simp
  | cons argv args ih =>
    simp only [List.forall₂_cons_left_iff, ih]
    simp [conveys_iff]

theorem Setup.told_told (s : Setup) (rs rs' : List Reading) : (s.told rs).told rs' = s.told (rs ++ rs') := by
  simp [told, List.filterMap_append, List.getLast?_append]

theorem setup_loop_told (args : List CString) (s : Setup) :
    setup_loop args s = (s.told (heard (args.map fun argv => reading argv.bytes)),
      args.all fun argv => !(reading argv.bytes).refused) := by
  induction args generalizing s with
  | nil => simp [setup_loop, heard, Setup.told]
  | cons argv args ih =>
    rw [setup_loop, setup_arg_told (conveys_iff.mpr rfl), List.map_cons, heard, List.all_cons]
    cases hrefused : (reading argv.bytes).refused with
    | true => rfl
    | false => simp [ih, Setup.told_told]

/-- Where nothing is refused everything is heard. -/
theorem heard_all {rs : List Reading} (h : ∀ r ∈ rs, r.refused = false) : heard rs = rs := by
  induction rs with
  | nil => rfl
  | cons r rs ih =>
    rw [heard, h r List.mem_cons_self, if_neg Bool.false_ne_true, ih fun r' hr' => h r' (List.mem_cons_of_mem _ hr')]

section
variable {args : List CString} {rs : List Reading}

/-- The loop over arguments that say `rs`. -/
theorem setup_loop_accepted (hrs : rs = args.map fun argv => reading argv.bytes)
    (h : ∀ r ∈ rs, r.refused = false) (s : Setup) : setup_loop args s = (s.told rs, true) := by
  have hall : (args.all fun argv => !(reading argv.bytes).refused) = true := by
    rw [List.all_eq_true]
    intro argv hargv
    rw [h _ (hrs ▸ List.mem_map_of_mem hargv)]
    rfl
  rw [setup_loop_told, hall, ← hrs, heard_all h]

theorem setup_loop_refused (hrs : rs = args.map fun argv => reading argv.bytes) {r : Reading} (hr : r ∈ rs)
    (h : r.refused = true) (s : Setup) : setup_loop args s = (s.told (heard rs), false) := by
  have hall : (args.all fun argv => !(reading argv.bytes).refused) = false := by
    rw [List.all_eq_false]
    obtain ⟨argv, hargv, rfl⟩ := List.mem_map.mp (hrs ▸ hr)
    refine ⟨argv, hargv, ?_⟩
    rw [h]
    exact Bool.false_ne_true
  rw [setup_loop_told, hall, ← hrs]

end

/-- `main` comes to its loop, or gives up, as its arguments say: which are read by their bytes alone, each in
    exactly one way. -/
theorem main_begun (args : List CString) (o : OpenOutcome) (create : Option SqlError) (db : Database) :
    ∃ rs, (∀ rs', List.Forall₂ (fun argv r => Conveys argv.bytes r) args rs' ↔ rs' = rs) ∧
      Begun rs o create db (prepare args o create db) := by
  obtain ⟨rs, hrs⟩ : ∃ rs, rs = args.map fun argv => reading argv.bytes := ⟨_, rfl⟩
  refine ⟨rs, fun rs' => hrs ▸ conveys_all_iff args rs', ?_⟩
  have hlength : rs.length = args.length := by rw [hrs, List.length_map]
  by_cases hmany : 3 < rs.length
  · have hargs : setup_args args Settings.initial.silent = (_, false) := if_pos (by omega)
    rw [prepare_refused hargs]
    exact .tooMany hmany
  have hloop : setup_args args Settings.initial.silent = setup_loop args Settings.initial.silent := if_neg (by omega)
  by_cases hrefused : ∃ r ∈ rs, r.refused = true
  · obtain ⟨r, hr, hno⟩ := hrefused
    rw [prepare_refused (hloop.trans (setup_loop_refused hrs hr hno _))]
    exact .refused (by omega) ⟨r, hr, hno⟩
  have haccepted : ∀ r ∈ rs, r.refused = false := fun r hr =>
    Bool.eq_false_iff.mpr fun hno => hrefused ⟨r, hr, hno⟩
  have hargs := hloop.trans (setup_loop_accepted hrs haccepted _)
  cases o with
  | ok =>
    obtain ⟨R, hready, hsettings, hdatabase⟩ := prepare_opened hargs create db
    rw [hready]
    exact .ready (by omega) haccepted rfl rfl hsettings hdatabase
  | fail code null =>
    rw [prepare_unopened hargs]
    exact .unopened (by omega) haccepted rfl (by rintro ⟨⟩)

end MarkMe

import MarkMe.Lib.Backtrack
import MarkMe.Lib.Text

/-! The command line: `setup_args`, and the ports on which `start` listens.

    An argument is split by `^\-(\S+)=(\S+)$`, and the numbers go through `std::stoi`, which skips white
    space, takes a sign and the digits after it, and does not mind what follows. An unknown name is
    reported and skipped. On its way into `tcp::endpoint` the port becomes an `unsigned short`.

        -port=8189 ──regex──▶ port, 8189 ──stoi──▶ 8189 : int ──▶ 8189 : unsigned short -/

namespace MarkMe
open Text

/-- An argument of the program. -/
structure CString where
  bytes : Bytes
  no_nul : (0 : Byte) ∉ bytes

structure Settings where
  count_servers : ℤ
  db_filename : Bytes
  server_port : ℤ

/-- The variables that `setup_args` sets, and what it has printed: lines to `cerr`, texts to `cout`. -/
structure Setup extends Settings where
  cerr : List Bytes
  cout : List Bytes

/-- What `main` starts from. -/
def Settings.initial : Settings := ⟨1, ascii "users.db", 8189⟩

/-- Nothing printed yet. -/
def Settings.silent (s : Settings) : Setup := ⟨s, [], []⟩

def Setup.error (s : Setup) (line : Bytes) : Setup := { s with cerr := s.cerr ++ [line] }

def Setup.print_help (s : Setup) : Setup :=
  { s with
    cout := s.cout ++ [ascii "Options:\n\t-srv=[positive integer]\t\tCount of servers.",
      ascii "\t-db=[filename]\t\tName of file where database is stored.\n"] }

/-! ### `std::stoi` -/

/-- `std::invalid_argument` and `std::out_of_range`. -/
inductive StoiError where
  | invalid_argument
  | out_of_range

/-- An optional sign in front of the digits. -/
def sign (s : Bytes) : Bool × Bytes :=
  if s.head? = some 45 then (true, s.tail)
  else if s.head? = some 43 then (false, s.tail)
  else (false, s)

def stoi (s : Bytes) : Except StoiError ℤ :=
  let (negative, s) := sign (s.dropWhile isSpace)
  let digits := s.takeWhile isDigit
  if digits = [] then .error .invalid_argument
  else
    let n : ℤ := if negative then -decVal digits else decVal digits
    if n < -2147483648 ∨ 2147483647 < n then .error .out_of_range else .ok n

/-! ### `setup_args` -/

/-- `\S` in the classic locale. -/
def nonspace (b : Byte) : Bool := !isSpace b

/-- `^\-(\S+)=(\S+)$`; `regex_match` is anchored at both ends by itself. -/
def argRegex : Backtrack.Regex Byte := .seq (.one (· == 45)) (Backtrack.pair nonspace 61)

/-- What an argument with this name and value sets, and whether the loop goes on. -/
def set_arg (arg_name arg_value : Bytes) (s : Setup) : Setup × Bool :=
  if arg_name = ascii "srv" then
    match stoi arg_value with
    | .error _ => (s.error (ascii "Error: Count of servers must be positive integer."), false)
    | .ok n =>
      let s := { s with count_servers := n }
      if n ≤ 0 then (s.error (ascii "Error: Count of servers must be POSITIVE integer."), false) else (s, true)
  else if arg_name = ascii "db" then ({ s with db_filename := arg_value }, true)
  else if arg_name = ascii "port" then
    match stoi arg_value with
    | .error _ => (s.error (ascii "Error: Server port must be positive integer."), false)
    | .ok n =>
      let s := { s with server_port := n }
      if n < 0 then (s.error (ascii "Error: Server port must be POSITIVE integer."), false) else (s, true)
  else
    ((s.error (ascii "Unrecognized command line option: \"" ++ arg_name ++ ascii "\"  :[")).print_help, true)

/-- One turn of the loop. -/
def setup_arg (argv : CString) (s : Setup) : Setup × Bool :=
  match argRegex.fullMatch argv.bytes with
  | some [arg_name, arg_value] => set_arg arg_name arg_value s
  | _ => (s.error (ascii "Error: Invalid argument format: \"" ++ argv.bytes ++ ascii "\" :("), false)

def setup_loop : List CString → Setup → Setup × Bool
  | [], s => (s, true)
  | argv :: args, s =>
    let (s, ok) := setup_arg argv s
    if ok then setup_loop args s else (s, false)

/-- `args` are the arguments after the name of the program, which `argc` counts too. -/
def setup_args (args : List CString) (s : Setup) : Setup × Bool :=
  if 4 < args.length + 1 then (s.error (ascii "It's too many command line options."), false)
  else setup_loop args s

/-! ### `start` -/

/-- The conversion to the port of `tcp::endpoint(tcp::v4(), port)`. -/
def endpoint_port (port : ℤ) : UInt16 := UInt16.ofInt port

/-- `start`: the ports of its servers. -/
def start (count_of_servers port : ℤ) : List UInt16 :=
  (List.range count_of_servers.toNat).map fun _ => endpoint_port port

/-! ### What is understood -/

/-- `-name=value`. -/
def named (name value : Bytes) : Bytes := ascii "-" ++ name ++ ascii "=" ++ value

theorem named_eq (name value : Bytes) : named name value = 45 :: (name ++ 61 :: value) := by
  have hminus : ascii "-" = [45] := rfl
  have hequals : ascii "=" = [61] := rfl
  simp [named, hminus, hequals]

/-- The regex splits an argument at the last `=` that leaves a value. -/
theorem arg_iff {s name value : Bytes} : argRegex.fullMatch s = some [name, value] ↔
    s = named name value ∧ name ≠ [] ∧ value ≠ [] ∧ (∀ b ∈ name ++ 61 :: value, isSpace b = false) ∧
      61 ∉ value.dropLast := by
  have hequals : nonspace 61 = true := by decide
  have hclass : ∀ {w : Bytes}, (∀ b ∈ w, nonspace b = true) ↔ ∀ b ∈ w, isSpace b = false := by simp [nonspace]
  rw [named_eq, argRegex]
  cases s with
  | nil => simp [Backtrack.Regex.fullMatch_one_nil]
  | cons a w =>
    rw [Backtrack.Regex.fullMatch_one]
    by_cases ha : a = 45
    · subst ha
      rw [if_pos (by decide), Backtrack.pair_iff hequals]
      constructor
      · intro h
        exact ⟨by rw [h.eq], h.left, h.right, hclass.mp (h.eq ▸ h.all), h.last⟩
      · rintro ⟨heq, hname, hvalue, hall, hlast⟩
        rw [List.cons.injEq] at heq
        exact ⟨heq.2, hname, hvalue, hclass.mpr (heq.2 ▸ hall), hlast⟩
    · simp [ha]

theorem arg_exists {name value : Bytes} (hname : name ≠ []) (hvalue : value ≠ [])
    (hall : ∀ b ∈ name ++ 61 :: value, isSpace b = false) :
    ∃ n v, argRegex.fullMatch (named name value) = some [n, v] := by
  obtain ⟨n, v, hmatch⟩ := Backtrack.pair_exists (p := nonspace) hname hvalue (by simpa [nonspace] using hall)
  exact ⟨n, v, by rw [named_eq, argRegex, Backtrack.Regex.fullMatch_one, if_pos (by decide), hmatch]⟩

/-- A numeral in full is read as it stands, if it fits into an `int`. -/
theorem stoi_numeral {v : Bytes} (h : isNumeral v = true) :
    stoi v = if 2147483647 < decVal v then .error .out_of_range else .ok (decVal v) := by
  have htake : v.takeWhile isDigit = v := List.takeWhile_eq_self_iff.mpr (numeral_iff.mp h).2
  obtain ⟨b, v, rfl, hb⟩ := numeral_head h
  have hspace : (b :: v).dropWhile isSpace = b :: v := by simp [digit_not_space hb]
  have hsign : sign (b :: v) = (false, b :: v) := by
    have hminus : b ≠ 45 := by rintro rfl; cases hb
    have hplus : b ≠ 43 := by rintro rfl; cases hb
    simp [sign, hminus, hplus]
  rw [stoi, hspace, hsign]
  simp only [htake, List.cons_ne_nil, if_false, Bool.false_eq_true]
  by_cases hbig : 2147483647 < decVal (b :: v)
  · rw [if_pos hbig, if_pos (Or.inr (by omega))]
  · rw [if_neg hbig, if_neg (by omega)]

/-- The names of the options. -/
def optionNames : List Bytes := [ascii "srv", ascii "db", ascii "port"]

/-- A name of the program's own. -/
theorem option_name {n : Bytes} (h : n ∈ optionNames) :
    n ≠ [] ∧ (∀ b ∈ n, isSpace b = false) ∧ 61 ∉ n ∧ 0 ∉ n := by
  have hall : ∀ n ∈ optionNames, n ≠ [] ∧ n.all (!isSpace ·) = true ∧ 61 ∉ n ∧ 0 ∉ n := by decide
  obtain ⟨hne, hsolid, hrest⟩ := hall n h
  exact ⟨hne, solid_of_all hsolid, hrest⟩

theorem set_arg_srv {value : Bytes} {n : ℤ} (hn : stoi value = .ok n) (hpos : 0 < n) (s : Setup) :
    set_arg (ascii "srv") value s = ({ s with count_servers := n }, true) := by
  rw [set_arg, if_pos rfl, hn]
  exact if_neg (by omega)

theorem set_arg_db (value : Bytes) (s : Setup) :
    set_arg (ascii "db") value s = ({ s with db_filename := value }, true) := by
  have hname : ascii "db" ≠ ascii "srv" := by decide
  rw [set_arg, if_neg hname, if_pos rfl]

theorem set_arg_port {value : Bytes} {n : ℤ} (hn : stoi value = .ok n) (hpos : 0 ≤ n) (s : Setup) :
    set_arg (ascii "port") value s = ({ s with server_port := n }, true) := by
  have hname : ascii "port" ≠ ascii "srv" ∧ ascii "port" ≠ ascii "db" := by decide
  rw [set_arg, if_neg hname.1, if_neg hname.2, if_pos rfl, hn]
  exact if_neg (by omega)

theorem set_arg_unrecognized {name : Bytes} (h : name ∉ optionNames) (value : Bytes) (s : Setup) :
    (set_arg name value s).2 = true ∧ (set_arg name value s).1.toSettings = s.toSettings := by
  simp only [optionNames, List.mem_cons, List.not_mem_nil, or_false, not_or] at h
  rw [set_arg, if_neg h.1, if_neg h.2.1, if_neg h.2.2]
  exact ⟨rfl, rfl⟩

/-- What an accepted argument sets. -/
inductive Setup.Accepts (s : Setup) : Bytes → Bytes → Setup → Prop
  | srv {value : Bytes} {n : ℤ} : stoi value = .ok n → 0 < n →
      Setup.Accepts s (ascii "srv") value { s with count_servers := n }
  | db {value : Bytes} : Setup.Accepts s (ascii "db") value { s with db_filename := value }
  | port {value : Bytes} {n : ℤ} : stoi value = .ok n → 0 ≤ n →
      Setup.Accepts s (ascii "port") value { s with server_port := n }
  | unrecognized {name value : Bytes} {t : Setup} : name ∉ optionNames → t.toSettings = s.toSettings →
      Setup.Accepts s name value t

/-- An argument is accepted, or a line says why it is not. -/
theorem set_arg_cases (name value : Bytes) (s : Setup) :
    ∃ t, set_arg name value s = (t, true) ∧ s.Accepts name value t ∨
      ∃ s' line, set_arg name value s = (Setup.error s' line, false) := by
  rw [set_arg]
  by_cases hsrv : name = ascii "srv"
  · subst hsrv
    rw [if_pos rfl]
    cases hn : stoi value with
    | error err => exact ⟨s, Or.inr ⟨_, _, rfl⟩⟩
    | ok n =>
      dsimp only
      by_cases hpos : n ≤ 0
      · rw [if_pos hpos]
        exact ⟨s, Or.inr ⟨_, _, rfl⟩⟩
      · rw [if_neg hpos]
        exact ⟨_, Or.inl ⟨rfl, .srv hn (by omega)⟩⟩
  · rw [if_neg hsrv]
    by_cases hdb : name = ascii "db"
    · subst hdb
      exact ⟨_, Or.inl ⟨rfl, .db⟩⟩
    · rw [if_neg hdb]
      by_cases hport : name = ascii "port"
      · subst hport
        rw [if_pos rfl]
        cases hn : stoi value with
        | error err => exact ⟨s, Or.inr ⟨_, _, rfl⟩⟩
        | ok n =>
          dsimp only
          by_cases hpos : n < 0
          · rw [if_pos hpos]
            exact ⟨s, Or.inr ⟨_, _, rfl⟩⟩
          · rw [if_neg hpos]
            exact ⟨_, Or.inl ⟨rfl, .port hn (by omega)⟩⟩
      · rw [if_neg hport]
        exact ⟨_, Or.inl ⟨rfl, .unrecognized (by simp [optionNames, hsrv, hdb, hport]) rfl⟩⟩

/-- A turn of the loop that goes on has split its argument and set what it says. -/
theorem setup_arg_accepts {argv : CString} {s t : Setup} (h : setup_arg argv s = (t, true)) :
    ∃ name value, argRegex.fullMatch argv.bytes = some [name, value] ∧ Setup.Accepts s name value t := by
  rw [setup_arg] at h
  split at h
  · rename_i name value hmatch
    obtain ⟨t', ⟨hset, haccepts⟩ | ⟨s', line, hset⟩⟩ := set_arg_cases name value s
    · cases hset.symm.trans h
      exact ⟨name, value, hmatch, haccepts⟩
    · cases hset.symm.trans h
  · cases h

/-! ### The loop -/

section
variable {args : List CString} {s t : Setup}

theorem setup_loop_cons {argv : CString} (h : setup_loop (argv :: args) s = (t, true)) :
    ∃ s', setup_arg argv s = (s', true) ∧ setup_loop args s' = (t, true) := by
  rw [setup_loop] at h
  rcases hstep : setup_arg argv s with ⟨s', ok⟩
  rw [hstep] at h
  cases ok with
  | true => exact ⟨s', rfl, h⟩
  | false => cases h

/-- What every accepted argument keeps is kept by the loop. -/
theorem setup_loop_inv {I : Setup → Prop} (hstep : ∀ {argv s t}, setup_arg argv s = (t, true) → I s → I t) :
    ∀ {args : List CString} {s t : Setup}, setup_loop args s = (t, true) → I s → I t
  | [], _, _, h, hs => by
    cases h
    exact hs
  | _ :: _, _, _, h, hs => by
    obtain ⟨s', harg, hrest⟩ := setup_loop_cons h
    exact setup_loop_inv hstep hrest (hstep harg hs)

theorem args_loop (h : setup_args args s = (t, true)) : setup_loop args s = (t, true) := by
  rw [setup_args] at h
  split at h
  · cases h
  · exact h

/-- With accepted arguments `main` has servers to start and a file to open. -/
theorem accepted_settings (h : setup_args args Settings.initial.silent = (t, true)) :
    0 < t.count_servers ∧ t.db_filename ≠ [] := by
  refine setup_loop_inv (I := fun s => 0 < s.count_servers ∧ s.db_filename ≠ []) (fun harg hs => ?_)
    (args_loop h) ⟨by decide, by decide⟩
  obtain ⟨name, value, hmatch, haccepts⟩ := setup_arg_accepts harg
  cases haccepts with
  | srv _ hpos => exact ⟨hpos, hs.2⟩
  | db => exact ⟨hs.1, (arg_iff.mp hmatch).2.2.1⟩
  | port _ _ => exact hs
  | unrecognized _ heq =>
    rw [congrArg Settings.count_servers heq, congrArg Settings.db_filename heq]
    exact hs

end

end MarkMe

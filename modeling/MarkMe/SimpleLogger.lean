import MarkMe.Lib.Monitor
import MarkMe.Lib.Text

/-! `debug_tools::SimpleLogger`, one object for all threads.

    Every method locks `mtx_` first and holds it to its end. `log` and `logToFile` write their line in
    six pieces, `logToFile` to the file whose name it finds. What comes out is whole lines all the
    same, in the order in which the calls return, and every line in the file that was set last.

        thread 1   log "INFO" "a"      time ' ' INFO ' ' a '\n'
        thread 2   log "DEBUG" "b"                              time ' ' DEBUG ' ' b '\n' -/

namespace MarkMe
open Text

/-- The logger and what it writes to: its part of `std::cout`, and the files by their names. -/
structure SimpleLogger where
  filename_ : Bytes
  cout : Bytes
  files : Bytes → Bytes

namespace SimpleLogger

/-- `SimpleLogger()`, in front of the files there are. -/
def new (files : Bytes → Bytes) : SimpleLogger := ⟨ascii "log.txt", [], files⟩

/-- A call, with what `second_clock::local_time()` shows when the line is written and whether the file
    can be opened. -/
inductive Call where
  | setFileName (file_name : Bytes)
  | getFileName
  | log (tag msg now : Bytes)
  | logToFile (tag msg now : Bytes) (is_open : Bool)

/-- What `<<` is handed for a line. -/
def pieces (tag msg now : Bytes) : List Bytes := [now, ascii " ", tag, ascii " ", msg, ascii "\n"]

def line (tag msg now : Bytes) : Bytes := (pieces tag msg now).flatten

/-- To `std::cout`. -/
def print (data : Bytes) (s : SimpleLogger) : SimpleLogger := { s with cout := s.cout ++ data }

/-- To the end of a file. -/
def append (file data : Bytes) (s : SimpleLogger) : SimpleLogger :=
  { s with files := Function.update s.files file (s.files file ++ data) }

/-- One `<<` after the other. -/
def write (put : Bytes → SimpleLogger → SimpleLogger) : List Bytes → Monitor.Body SimpleLogger (Option Bytes)
  | [] => .done none
  | data :: rest => .access (put data) fun _ => write put rest

/-- The methods, from behind their lock. -/
def body : Call → Monitor.Body SimpleLogger (Option Bytes)
  | .setFileName file_name => .access (fun s => { s with filename_ := file_name }) fun _ => .done none
  | .getFileName => .access id fun s => .done (some s.filename_)
  | .log tag msg now => write print (pieces tag msg now)
  | .logToFile tag msg now is_open => .access id fun s =>
    if is_open then write (append (cstr s.filename_)) (pieces tag msg now) else .done none

/-! ### What the calls come to -/

/-- The line a call prints. -/
def Call.printed : Call → Option Bytes
  | log tag msg now => some (line tag msg now)
  | _ => none

/-- The line a call writes to `file` when `filename_` is `name`. -/
def Call.filed (file name : Bytes) : Call → Option Bytes
  | logToFile tag msg now true => if cstr name = file then some (line tag msg now) else none
  | _ => none

/-- `filename_` after a call. -/
def Call.named (name : Bytes) : Call → Bytes
  | setFileName file_name => file_name
  | _ => name

/-- What a call returns. -/
def Call.result (name : Bytes) : Call → Option Bytes
  | getFileName => some name
  | _ => none

/-- The logger after some writes in a row. -/
theorem write_run (put : Bytes → SimpleLogger → SimpleLogger) : ∀ (ps : List Bytes) (s : SimpleLogger),
    (write put ps).run s = (ps.foldl (fun s data => put data s) s, none)
  | [], _ => rfl
  | data :: ps, s => by
    rw [write, Monitor.Body.run, write_run put ps, List.foldl_cons]

theorem print_all : ∀ (ps : List Bytes) (s : SimpleLogger),
    ps.foldl (fun s data => print data s) s = print ps.flatten s
  | [], s => by simp [print]
  | data :: ps, s => by
    rw [List.foldl_cons, print_all ps]
    simp [print]

theorem append_all (file : Bytes) : ∀ (ps : List Bytes) (s : SimpleLogger),
    ps.foldl (fun s data => append file data s) s = append file ps.flatten s
  | [], s => by simp [append]
  | data :: ps, s => by
    rw [List.foldl_cons, append_all file ps]
    simp [append]

/-- A call in one go. -/
theorem atomic_call (s : SimpleLogger) (c : Call) : Monitor.atomic body s c
    = (⟨c.named s.filename_, s.cout ++ c.printed.getD [], fun file => s.files file ++ (c.filed file s.filename_).getD []⟩,
      c.result s.filename_) := by
  cases c with
  | setFileName file_name => simp [Monitor.atomic, body, Monitor.Body.run, Call.named, Call.printed, Call.filed, Call.result]
  | getFileName => simp [Monitor.atomic, body, Monitor.Body.run, Call.named, Call.printed, Call.filed, Call.result]
  | log tag msg now =>
    rw [Monitor.atomic, body, write_run, print_all]
    simp [print, Call.named, Call.printed, Call.filed, Call.result, line]
  | logToFile tag msg now is_open =>
    rw [Monitor.atomic, body, Monitor.Body.run]
    cases is_open with
    | false => simp [Monitor.Body.run, Call.named, Call.printed, Call.filed, Call.result]
    | true =>
      rw [if_pos rfl, write_run, append_all]
      simp only [append, id, Call.named, Call.printed, Call.filed, Call.result, Option.getD_none, List.append_nil, line]
      congr 1
      congr 1
      funext file
      rcases eq_or_ne file (cstr s.filename_) with rfl | hne
      · simp
      · simp [hne, hne.symm]

/-- The lines that calls in a row write to `file`, from a name on. -/
def filedIn (file : Bytes) : Bytes → List Call → List Bytes
  | _, [] => []
  | name, c :: cs => (c.filed file name).toList ++ filedIn file (c.named name) cs

/-- What they return. -/
def returned : Bytes → List Call → List (Option Bytes)
  | _, [] => []
  | name, c :: cs => c.result name :: returned (c.named name) cs

/-- Calls in a row. -/
theorem atomic_final : ∀ (cs : List Call) (s : SimpleLogger), Machine.final (Monitor.atomic body) s cs
    = ⟨cs.foldl Call.named s.filename_, s.cout ++ (cs.filterMap Call.printed).flatten,
      fun file => s.files file ++ (filedIn file s.filename_ cs).flatten⟩
  | [], s => by simp [Machine.final, filedIn]
  | c :: cs, s => by
    rw [Machine.final, atomic_call, atomic_final cs]
    have hline : ∀ o : Option Bytes, o.toList.flatten = o.getD [] := by
      rintro (_ | _) <;> simp
    cases hprinted : c.printed <;> simp [hprinted, filedIn, hline]

theorem atomic_outs : ∀ (cs : List Call) (s : SimpleLogger),
    (Machine.trace (Monitor.atomic body) s cs).map (fun ev => ev.out) = returned s.filename_ cs
  | [], _ => rfl
  | c :: cs, s => by
    rw [Machine.trace, List.map_cons, atomic_outs cs]
    simp [Machine.event, atomic_call, returned]

/-! ### On the way -/

/-- Writes in a row have written some of the pieces. -/
theorem write_steps (put : Bytes → SimpleLogger → SimpleLogger) {b : Monitor.Body SimpleLogger (Option Bytes)}
    {s' : SimpleLogger} : ∀ {ps : List Bytes} {s : SimpleLogger}, (write put ps).Steps s b s' →
      ∃ k, s' = (ps.take k).foldl (fun s data => put data s) s
  | [], _, h => ⟨0, h.of_done⟩
  | data :: ps, s, h => by
    rcases h.of_access with rfl | hnext
    · exact ⟨0, rfl⟩
    · obtain ⟨k, hk⟩ := write_steps put hnext
      exact ⟨k + 1, hk⟩

/-- The beginning of a line. -/
theorem line_take (tag msg now : Bytes) (k : ℕ) : ((pieces tag msg now).take k).flatten <+: line tag msg now := by
  obtain ⟨rest, hrest⟩ := List.take_prefix k (pieces tag msg now)
  exact ⟨rest.flatten, by rw [← List.flatten_append, hrest, line]⟩

/-- A call on its way has written the beginning of its line. -/
theorem call_steps {c : Call} {s s' : SimpleLogger} {b : Monitor.Body SimpleLogger (Option Bytes)}
    (h : (body c).Steps s b s') :
    (∃ rest, s'.cout = s.cout ++ rest ∧ rest <+: c.printed.getD []) ∧
      ∀ file, ∃ rest, s'.files file = s.files file ++ rest ∧ rest <+: (c.filed file s.filename_).getD [] := by
  -- nothing is written yet, or nothing ever is
  have hstill : ∀ {t : SimpleLogger}, t.cout = s.cout → t.files = s.files →
      (∃ rest, t.cout = s.cout ++ rest ∧ rest <+: c.printed.getD []) ∧
        ∀ file, ∃ rest, t.files file = s.files file ++ rest ∧ rest <+: (c.filed file s.filename_).getD [] :=
    fun hcout hfiles => ⟨⟨[], by simp [hcout], List.nil_prefix⟩, fun file => ⟨[], by simp [hfiles], List.nil_prefix⟩⟩
  cases c with
  | setFileName file_name =>
    rcases h.of_access with rfl | hnext
    · exact hstill rfl rfl
    · rw [hnext.of_done]
      exact hstill rfl rfl
  | getFileName =>
    rcases h.of_access with rfl | hnext
    · exact hstill rfl rfl
    · rw [hnext.of_done]
      exact hstill rfl rfl
  | log tag msg now =>
    obtain ⟨k, rfl⟩ := write_steps print h
    rw [print_all]
    exact ⟨⟨_, rfl, line_take tag msg now k⟩, fun file => ⟨[], (List.append_nil _).symm, List.nil_prefix⟩⟩
  | logToFile tag msg now is_open =>
    rcases h.of_access with rfl | hnext
    · exact hstill rfl rfl
    · cases is_open with
      | false =>
        rw [Monitor.Body.Steps.of_done hnext]
        exact hstill rfl rfl
      | true =>
        obtain ⟨k, rfl⟩ := write_steps _ hnext
        rw [append_all]
        refine ⟨⟨[], (List.append_nil _).symm, List.nil_prefix⟩, fun file => ?_⟩
        rcases eq_or_ne file (cstr s.filename_) with rfl | hne
        · exact ⟨_, by simp only [append, id, Function.update_self]; rfl, by
            simpa only [Call.filed, if_pos, Option.getD_some] using line_take tag msg now k⟩
        · exact ⟨[], by simp [append, hne], List.nil_prefix⟩

variable {θ : Type*}

/-- `rest` is the beginning of what the call of the holder writes, and nothing when there is none. -/
def Beginning (m : Monitor.State θ Call SimpleLogger (Option Bytes)) (out : Call → Option Bytes) (rest : Bytes) : Prop :=
  (m.holder = none ∧ rest = []) ∨ ∃ t c b, m.holder = some t ∧ m.place t = .inside c b ∧ rest <+: (out c).getD []

theorem beginning_of_stands {m : Monitor.State θ Call SimpleLogger (Option Bytes)} {s : SimpleLogger}
    (h : Monitor.Stands body m s) :
    (∃ rest, Beginning m Call.printed rest ∧ m.shared.cout = s.cout ++ rest) ∧
      ∀ file, ∃ rest, Beginning m (Call.filed file s.filename_) rest ∧ m.shared.files file = s.files file ++ rest := by
  cases hm : m.holder with
  | none =>
    rw [h.free hm]
    exact ⟨⟨[], Or.inl ⟨hm, rfl⟩, (List.append_nil _).symm⟩, fun file => ⟨[], Or.inl ⟨hm, rfl⟩, (List.append_nil _).symm⟩⟩
  | some t =>
    obtain ⟨c, b, hplace⟩ := h.held t hm
    obtain ⟨⟨rest, hcout, hrest⟩, hfiles⟩ := call_steps (h.busy t c b hplace)
    refine ⟨⟨rest, Or.inr ⟨t, c, b, hm, hplace, hrest⟩, hcout⟩, fun file => ?_⟩
    obtain ⟨rest, hfile, hrest⟩ := hfiles file
    exact ⟨rest, Or.inr ⟨t, c, b, hm, hplace, hrest⟩, hfile⟩

/-- Whatever the threads do, the output is whole lines, in the order in which their calls return, and then
    the beginning of at most one more; every line is in the file that was set last before it. -/
theorem lines_whole [DecidableEq θ] (files : Bytes → Bytes) (turns : List (Monitor.Turn θ Call)) :
    let first := Monitor.start θ Call (Option Bytes) (new files)
    let m := Machine.final (Monitor.step body) first turns
    let shown := (Machine.trace (Monitor.step body) first turns).filterMap Monitor.shows
    let calls := shown.map Prod.fst
    let name := calls.foldl Call.named (ascii "log.txt")
    (∃ rest, Beginning m Call.printed rest ∧ m.shared.cout = (calls.filterMap Call.printed).flatten ++ rest) ∧
      (∀ file, ∃ rest, Beginning m (Call.filed file name) rest ∧
        m.shared.files file = files file ++ (filedIn file (ascii "log.txt") calls).flatten ++ rest) ∧
      (m.holder = none → m.shared.filename_ = name) ∧
      shown.map Prod.snd = returned (ascii "log.txt") calls := by
  intro first m shown calls name
  obtain ⟨hstands, htrace⟩ := Monitor.linear (θ := θ) body (new files) turns
  rw [atomic_final] at hstands
  obtain ⟨hcout, hfiles⟩ := beginning_of_stands hstands
  refine ⟨hcout, hfiles, fun hfree => congrArg SimpleLogger.filename_ (hstands.free hfree), ?_⟩
  calc shown.map Prod.snd
      = (Machine.trace (Monitor.atomic body) (new files) calls).map (fun ev => ev.out) := by
        refine (congrArg (List.map Prod.snd) htrace.symm).trans ?_
        rw [List.map_map]
        rfl
    _ = returned (ascii "log.txt") calls := atomic_outs calls (new files)

end SimpleLogger

end MarkMe

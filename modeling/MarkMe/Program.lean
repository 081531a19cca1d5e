import MarkMe.Arguments
import MarkMe.Lifetimes
import MarkMe.Serial

/-! The program from its command line on.

    `main` reads the options, creates the table and calls `start` in a loop that it never leaves. A
    server that cannot bind its port and a handler that throws both end `start` with an exception, and
    the next round begins with the table as it stands. `init_server_db` does not look at how its
    CREATE went, so the servers may come up on a file without a table.

        setup_args ──▶ init_server_db ──▶ starting ──▶ serving
            │ 1             │ 2              ▲  └──────────┤ an exception
            ▼               ▼                └─────────────┘ "Restarting server..." -/

namespace MarkMe
open Text Session

/-! ### Up to the loop -/

/-- The database file: the table, or nothing if there is none yet. -/
abbrev Database := Option Users

/-- Under this name every connection gets a database of its own, which is gone with the connection. -/
def memoryName : Bytes := ascii ":memory:"

def createUsers : Bytes := ascii ("CREATE TABLE IF NOT EXISTS users(" ++
  "\tid INTEGER PRIMARY KEY AUTOINCREMENT," ++
  "\tip VARCHAR(50)," ++
  "\tpassword VARCHAR(50)," ++
  "\tcoordinates VARCHAR(50));")

/-- `init_server_db`, with what becomes of the file, the handles of its connection and its calls of
    `sqlite3_exec`. -/
def init_server_db (db_filename : Bytes) (o : OpenOutcome) (create : Option SqlError) (db : Database) :
    Bool × Database × Handles × List ExecCall :=
  let connection := SQLConnection.new db_filename
  let (connection, h, opened) := connection.open_ o ⟨[], []⟩
  if !opened then (false, db, (connection.destroy h).2, [])
  else
    let (_, created) := SQLDatabase.new.exec ⟨connection, [], create⟩
    let calls := (SQLDatabase.passed connection).toList.map fun handle =>
      (⟨⟨createUsers, [], createUsers⟩, handle, (create.map fun err => err.code.1).getD 0⟩ : ExecCall)
    -- true even if the table could not be created
    (true, if db_filename = memoryName then none else if created then some (db.getD .empty) else db,
      (connection.destroy h).2, calls)

/-- What `main` comes to its loop with. -/
structure Ready extends Settings where
  database : Database
  servers_pos : 0 < count_servers
  filename_ne : db_filename ≠ []

/-- `main` up to its loop: on with the loop, or the code it returns. -/
def prepare (args : List CString) (o : OpenOutcome) (create : Option SqlError) (db : Database) :
    Setup × Except ℤ Ready :=
  match h : setup_args args Settings.initial.silent with
  | (s, false) => (s.error (ascii "Unable to setup command line arguments!"), .error 1)
  | (s, true) =>
    match init_server_db s.db_filename o create db with
    | (false, _) => (s.error (ascii "Unable to connect to the database!\nFilename: " ++ s.db_filename), .error 2)
    | (true, db, _) => (s, .ok ⟨s.toSettings, db, (accepted_settings h).1, (accepted_settings h).2⟩)

/-! ### The loop -/

/-- Where `main` is in its loop; `next` is the number of the next session. -/
inductive Phase where
  | starting (u : Users) (next : ℕ)
  | serving (l : Loop)

structure Program where
  cerr : List Bytes
  cout : List Bytes
  phase : Phase

inductive Happening where
  /-- `start` makes its servers, the `i`-th of which may fail to bind its port. -/
  | start (bound : ℕ → Bool)
  | completion (c : Completion)
  /-- `io_service.run()` runs out of handlers. -/
  | idle

/-- SQLite has no table to run a statement on. -/
def noTableError : SqlError := ⟨Host.syntaxError.code, some (ascii "no such table: users")⟩

/-- Every statement fails. -/
def Request.tableless (r : Request) : Request :=
  { r with env := { r.env with stmts := fun n => some ((r.env.stmts n).getD noTableError) } }

namespace Ready
variable (R : Ready)

/-- The host with the file of the `-db` option. -/
def host (H : Host) : Host := { H with
  dbFilename := R.db_filename
  dbFilename_ne := R.filename_ne }

def servers : ℕ := R.count_servers.toNat

theorem servers_ne : 0 < R.servers := by
  have := R.servers_pos
  rw [servers]
  omega

/-- A request as it meets the file. -/
def faced (r : Request) : Request := if R.database.isNone then r.tableless else r

def seen : Completion → Completion
  | .accept server error => .accept server error
  | .read sid r => .read sid (R.faced r)

end Ready

namespace Program

def users (p : Program) : Users :=
  match p.phase with
  | .starting u _ => u
  | .serving l => l.users

/-- Another round of the loop. -/
def restart (p : Program) (u : Users) (next : ℕ) : Program :=
  { p with
    cout := p.cout ++ [ascii "Restarting server..."]
    phase := .starting u next }

/-- An exception has left `start`. -/
def caught (p : Program) (u : Users) (next : ℕ) : Program :=
  { p with cerr := p.cerr ++ [ascii "Server is down. :/"] }.restart u next

/-- In front of the first round. -/
def first (R : Ready) (s : Setup) : Program := ⟨s.cerr, s.cout, .starting (R.database.getD .empty) 0⟩

variable (H : Host) (R : Ready)

def step (p : Program) : Happening → Program × Option Outcome
  | .start bound =>
    match p.phase with
    | .starting u next =>
      if ∀ i < R.servers, bound i = true then
        ({ p with phase := .serving (Loop.launch (R.host H) R.servers u next) }, none)
      else (p.caught u next, none)
    | .serving _ => (p, none)
  | .completion c =>
    match p.phase with
    | .starting _ _ => (p, none)
    | .serving l =>
      let (l', o) := Loop.step (R.host H) l (R.seen c)
      if (o.bind Outcome.threw).isSome then (p.caught l'.users l'.next, o)
      else ({ p with phase := .serving l' }, o)
  | .idle =>
    match p.phase with
    | .starting _ _ => (p, none)
    | .serving l =>
      if l.accepts = [] ∧ ∀ sid < l.next, ∀ slot ∈ l.slots sid, slot.reads = 0 then (p.restart l.users l.next, none)
      else (p, none)

/-! ### What a happening does -/

/-- The happenings that change the program, each with its guard. -/
inductive Moves (p : Program) : Happening → Program → Option Outcome → Prop
  | launched {bound : ℕ → Bool} {u : Users} {next : ℕ} : p.phase = .starting u next →
      (∀ i < R.servers, bound i = true) →
      Moves p (.start bound) { p with phase := .serving (Loop.launch (R.host H) R.servers u next) } none
  | unbound {bound : ℕ → Bool} {u : Users} {next : ℕ} : p.phase = .starting u next →
      ¬ (∀ i < R.servers, bound i = true) → Moves p (.start bound) (p.caught u next) none
  | ran {l : Loop} {c : Completion} : p.phase = .serving l → ¬ TakesDown l (R.seen c) →
      Moves p (.completion c) { p with phase := .serving (Loop.step (R.host H) l (R.seen c)).1 }
        (Loop.step (R.host H) l (R.seen c)).2
  | threw {l : Loop} {c : Completion} : p.phase = .serving l → TakesDown l (R.seen c) →
      Moves p (.completion c)
        (p.caught (Loop.step (R.host H) l (R.seen c)).1.users (Loop.step (R.host H) l (R.seen c)).1.next)
        (Loop.step (R.host H) l (R.seen c)).2
  | ranOut {l : Loop} : p.phase = .serving l → l.accepts = [] → Moves p .idle (p.restart l.users l.next) none

/-- What holds between two happenings. -/
def Good (p : Program) : Prop := ∀ l, p.phase = .serving l → l.Inv (R.host H) ∧ l.Serving R.servers

end Program

/-- The outcome of a completion tells whether its handler threw. -/
theorem Loop.threw_iff {H : Host} {l : Loop} (h : l.Inv H) (c : Completion) :
    ((Loop.step H l c).2.bind Outcome.threw).isSome = true ↔ TakesDown l c := by
  have hdoes := step_does h c
  have hread : ∀ {sid : ℕ} {r : Request}, l.slots sid = some (Slot.reading H) →
      (((some (handleRequest H l.users r).2).bind Outcome.threw).isSome = true ↔ TakesDown l (.read sid r)) := by
    intro sid r hs
    have hthrew : ((handleRequest H l.users r).2.threw).isSome = true ↔ r.Throws := by
      rw [← throws_iff H l.users r, handleRequest]
      cases completeRead H (Session.new H.dbFilename).start l.users r with
      | ok st => simp [conclude]
      | error err => exact iff_of_true rfl ⟨err, rfl⟩
    rw [Option.bind_some, hthrew]
    refine ⟨fun ht => ⟨sid, r, _, rfl, hs, Nat.one_pos, ht⟩, ?_⟩
    rintro ⟨sid', r', slot, heq, -, -, ht⟩
    cases heq
    exact ht
  generalize hl' : (Loop.step H l c).1 = l' at hdoes
  generalize ho : (Loop.step H l c).2 = o at hdoes ⊢
  cases hdoes with
  | nothing _ =>
    refine iff_of_false (by simp) ?_
    rintro ⟨sid, r, slot, rfl, hs, hr, -⟩
    obtain rfl := slot_reading h hs hr
    have hserved := (read_served hs r).1
    rw [ho] at hserved
    cases hserved
  | accept _ =>
    refine iff_of_false (by simp) ?_
    rintro ⟨_, _, _, heq, -⟩
    cases heq
  | answer hs _ _ => exact hread hs
  | down hs _ => exact hread hs

namespace Program
variable {H : Host} {R : Ready} {p : Program}

theorem step_moves (hp : p.Good H R) (x : Happening) :
    Moves H R p x (step H R p x).1 (step H R p x).2 ∨ step H R p x = (p, none) := by
  cases x with
  | start bound =>
    rw [step]
    cases hphase : p.phase with
    | serving l => exact Or.inr rfl
    | starting u next =>
      dsimp only
      split
      · exact Or.inl (.launched hphase ‹_›)
      · exact Or.inl (.unbound hphase ‹_›)
  | completion c =>
    rw [step]
    cases hphase : p.phase with
    | starting u next => exact Or.inr rfl
    | serving l =>
      have hthrew := Loop.threw_iff (hp l hphase).1 (R.seen c)
      dsimp only
      split
      · exact Or.inl (.threw hphase (hthrew.mp ‹_›))
      · exact Or.inl (.ran hphase (mt hthrew.mpr ‹_›))
  | idle =>
    rw [step]
    cases hphase : p.phase with
    | starting u next => exact Or.inr rfl
    | serving l =>
      dsimp only
      split
      · rename_i h
        exact Or.inl (.ranOut hphase h.1)
      · exact Or.inr rfl

theorem good_moves {p' : Program} {x : Happening} {o : Option Outcome} (hmove : Moves H R p x p' o)
    (hp : p.Good H R) : p'.Good H R := by
  intro l hl
  cases hmove with
  | launched _ _ =>
    cases hl
    exact ⟨Loop.inv_launch _ _ _, Loop.serving_launch _ _ _⟩
  | unbound _ _ => cases hl
  | ran hphase _ =>
    cases hl
    obtain ⟨hinv, hserving⟩ := hp _ hphase
    exact ⟨Loop.inv_step hinv _, Loop.serving_step hserving _⟩
  | threw _ _ => cases hl
  | ranOut _ _ => cases hl

theorem good_step (hp : p.Good H R) (x : Happening) : (step H R p x).1.Good H R := by
  rcases step_moves hp x with hmove | heq
  · exact good_moves hmove hp
  · rw [heq]
    exact hp

theorem good_first (s : Setup) : (first R s).Good H R := by
  intro l hl
  cases hl

/-- A serving loop always has an accept outstanding. -/
theorem accepts_ne (hp : p.Good H R) {l : Loop} (hl : p.phase = .serving l) : l.accepts ≠ [] := by
  intro hnil
  obtain ⟨sid, hsid⟩ := Loop.Serving.waits_with (hp l hl).2 R.servers_ne
  rw [hnil] at hsid
  cases hsid

/-! ### Whole runs -/

/-- The request an event handles, as it met the file, and what it came to. -/
def handles (R : Ready) (ev : Machine.Event Program Happening (Option Outcome)) : Option (Request × Outcome) :=
  match ev.input, ev.out with
  | .completion (.read _ r), some o => some (R.faced r, o)
  | _, _ => none

theorem handles_faced {ev : Machine.Event Program Happening (Option Outcome)} {y : Request × Outcome}
    (h : handles R ev = some y) : ∃ r, y.1 = R.faced r := by
  rw [handles] at h
  split at h
  · cases h
    exact ⟨_, rfl⟩
  · cases h

theorem handles_completion (c : Completion) (l : Loop) (o : Option Outcome) (p p' : Program) (l' : Loop) :
    handles R ⟨p, .completion c, p', o⟩ = Loop.handles ⟨l, R.seen c, l', o⟩ := by
  cases c with
  | accept server error => rfl
  | read sid r => cases o <;> rfl

theorem step_shown (hp : p.Good H R) {x : Happening} {y : Request × Outcome}
    (hy : handles R (Machine.event (step H R) p x) = some y) :
    handleRequest (R.host H) p.users y.1 = ((step H R p x).1.users, y.2) := by
  have hread : ∀ {l : Loop} {c : Completion} {p' : Program}, p.phase = .serving l →
      handles R ⟨p, .completion c, p', (Loop.step (R.host H) l (R.seen c)).2⟩ = some y →
      handleRequest (R.host H) p.users y.1 = ((Loop.step (R.host H) l (R.seen c)).1.users, y.2) := by
    intro l c p' hphase hy
    rw [handles_completion c l _ p p' (Loop.step (R.host H) l (R.seen c)).1] at hy
    rw [users, hphase]
    exact Loop.step_shown (hp l hphase).1 hy
  rcases step_moves hp x with hmove | heq
  · simp only [Machine.event] at hy
    generalize (step H R p x).1 = p' at hmove hy ⊢
    generalize (step H R p x).2 = o at hmove hy
    cases hmove with
    | launched _ _ => cases hy
    | unbound _ _ => cases hy
    | ran hphase _ => exact hread hphase hy
    | threw hphase _ => exact hread hphase hy
    | ranOut _ _ => cases hy
  · rw [Machine.event, heq, handles] at hy
    split at hy
    · rename_i ho
      cases ho
    · cases hy

theorem step_silent (hp : p.Good H R) {x : Happening} (hx : handles R (Machine.event (step H R) p x) = none) :
    (step H R p x).1.users = p.users := by
  have hread : ∀ {l : Loop} {c : Completion} {p' : Program}, p.phase = .serving l →
      handles R ⟨p, .completion c, p', (Loop.step (R.host H) l (R.seen c)).2⟩ = none →
      (Loop.step (R.host H) l (R.seen c)).1.users = p.users := by
    intro l c p' hphase hx
    rw [handles_completion c l _ p p' (Loop.step (R.host H) l (R.seen c)).1] at hx
    rw [users, hphase]
    exact Loop.step_silent (hp l hphase).1 hx
  rcases step_moves hp x with hmove | heq
  · simp only [Machine.event] at hx
    generalize (step H R p x).1 = p' at hmove hx ⊢
    generalize (step H R p x).2 = o at hmove hx
    cases hmove with
    | launched hphase _ =>
      rw [users, users, hphase]
      exact Loop.launch_users _ _ _
    | unbound hphase _ =>
      rw [users, users, hphase]
      rfl
    | ran hphase _ => exact hread hphase hx
    | threw hphase _ => exact hread hphase hx
    | ranOut hphase _ =>
      rw [users, users, hphase]
      rfl
  · rw [heq]

theorem handles_completed {ev : Machine.Event Program Happening (Option Outcome)} {sid : ℕ} {r : Request}
    (h : ev.input = .completion (.read sid r)) : handles R ev = ev.out.map fun o => (R.faced r, o) := by
  rw [handles, h]
  cases ev.out <;> rfl

/-- A read that completes is handled exactly if the program serves and the session waits for it. -/
theorem handles_read (hp : p.Good H R) (sid : ℕ) (r : Request) :
    (∃ o, (step H R p (.completion (.read sid r))).2 = some o) ↔
      ∃ l, p.phase = .serving l ∧ l.slots sid = some (Slot.reading (R.host H)) := by
  cases hphase : p.phase with
  | starting u next =>
    refine iff_of_false ?_ (by rintro ⟨l, hl, -⟩; cases hl)
    rintro ⟨o, ho⟩
    rw [step, hphase] at ho
    cases ho
  | serving l =>
    have hinv := (hp l hphase).1
    have hstep : (step H R p (.completion (.read sid r))).2 = (Loop.step (R.host H) l (.read sid (R.faced r))).2 := by
      rw [step, hphase]
      dsimp only [Ready.seen]
      split <;> rfl
    rw [hstep]
    constructor
    · rintro ⟨o, ho⟩
      refine ⟨l, rfl, ?_⟩
      rw [Loop.step] at ho
      cases hs : l.slots sid with
      | none =>
        rw [hs] at ho
        cases ho
      | some slot =>
        rw [hs] at ho
        dsimp only at ho
        split at ho
        · rw [Loop.slot_reading hinv hs ‹_›]
        · cases ho
    · rintro ⟨_, ⟨⟩, hs⟩
      exact ⟨_, (Loop.read_served hs (R.faced r)).1⟩

/-- A program whose servers can bind their ports gets to serve. -/
theorem start_serves (p : Program) : ∃ l, (step H R p (.start fun _ => true)).1.phase = .serving l := by
  rw [step]
  cases hphase : p.phase with
  | serving l => exact ⟨l, hphase⟩
  | starting u next =>
    dsimp only
    rw [if_pos fun _ _ => rfl]
    exact ⟨_, rfl⟩

/-- A server accepts a client, whose session then waits for its read. -/
theorem accept_waits (hp : p.Good H R) {l : Loop} (hl : p.phase = .serving l) {i : ℕ} (hi : i < R.servers) :
    ∃ sid l', (step H R p (.completion (.accept i false))).1.phase = .serving l' ∧
      l'.slots sid = some (Slot.reading (R.host H)) := by
  obtain ⟨hinv, hserving⟩ := hp l hl
  obtain ⟨sid, hsid⟩ := hserving.waits_with hi
  have hlookup : l.accepts.lookup i = some sid := Loop.lookup_of_filter hsid
  have hquiet : (Loop.step (R.host H) l (.accept i false)).2 = none := by
    rw [Loop.step, hlookup]
  refine ⟨sid, (Loop.step (R.host H) l (.accept i false)).1, ?_, Loop.accept_opens hinv hlookup⟩
  rw [step, hl]
  dsimp only [Ready.seen]
  rw [hquiet]
  rfl

end Program

/-- From any state the program gets to, its run is that of the requests it handles. -/
theorem Program.simulates {H : Host} {R : Ready} {p : Program} (hp : p.Good H R) (hs : List Happening) :
    let shown := (Machine.trace (Program.step H R) p hs).filterMap (Program.handles R)
    (Machine.final (Program.step H R) p hs).users
        = Machine.final (handleRequest (R.host H)) p.users (shown.map Prod.fst) ∧
      (Machine.trace (handleRequest (R.host H)) p.users (shown.map Prod.fst)).map
        (fun ev => (ev.input, ev.out)) = shown := by
  have hshown : ∀ (p : Program) (u : Users) (x : Happening) (y : Request × Outcome), p.Good H R ∧ p.users = u →
      handles R (Machine.event (step H R) p x) = some y →
      ((step H R p x).1.Good H R ∧ (step H R p x).1.users = (handleRequest (R.host H) u y.1).1) ∧
        (handleRequest (R.host H) u y.1).2 = y.2 := by
    rintro p _ x y ⟨hp, rfl⟩ hy
    rw [step_shown hp hy]
    exact ⟨⟨good_step hp x, rfl⟩, rfl⟩
  have hsilent : ∀ (p : Program) (u : Users) (x : Happening), p.Good H R ∧ p.users = u →
      handles R (Machine.event (step H R) p x) = none → (step H R p x).1.Good H R ∧ (step H R p x).1.users = u := by
    rintro p _ x ⟨hp, rfl⟩ hx
    exact ⟨good_step hp x, step_silent hp hx⟩
  obtain ⟨⟨-, hfinal⟩, htrace⟩ := Machine.simulation (fun (p : Program) u => p.Good H R ∧ p.users = u) hshown hsilent hs ⟨hp, rfl⟩
  exact ⟨hfinal, htrace⟩

/-- The table after a run of the program, from the file that `main` found or created, is that of the
    requests handled, one after the other, whatever servers failed to start and handlers threw in
    between; and each request was answered as in that run. -/
theorem program_serial (H : Host) (R : Ready) (s : Setup) (hs : List Happening) :
    let shown := (Machine.trace (Program.step H R) (Program.first R s) hs).filterMap (Program.handles R)
    (Machine.final (Program.step H R) (Program.first R s) hs).users
        = Machine.final (handleRequest (R.host H)) (R.database.getD .empty) (shown.map Prod.fst) ∧
      (Machine.trace (handleRequest (R.host H)) (R.database.getD .empty) (shown.map Prod.fst)).map
        (fun ev => (ev.input, ev.out)) = shown :=
  Program.simulates (Program.good_first s) hs

/-- An exception leaves `start`: a server cannot bind its port, or a handler throws. -/
def Program.raises (R : Ready) (ev : Machine.Event Program Happening (Option Outcome)) : Bool :=
  match ev.pre.phase, ev.input with
  | .starting _ _, .start bound => !decide (∀ i < R.servers, bound i = true)
  | .serving _, .completion _ => (ev.out.bind Outcome.threw).isSome
  | _, _ => false

/-- After `k` exceptions. -/
structure Program.Down (s : Setup) (k : ℕ) (p : Program) : Prop where
  cerr : p.cerr = s.cerr ++ List.replicate k (ascii "Server is down. :/")
  cout : p.cout = s.cout ++ List.replicate k (ascii "Restarting server...")

theorem Program.Down.caught {s : Setup} {k : ℕ} {p : Program} (h : p.Down s k) (u : Users) (next : ℕ) :
    (p.caught u next).Down s (k + 1) := by
  refine ⟨?_, ?_⟩
  · rw [Program.caught, Program.restart, h.cerr, List.append_assoc, List.replicate_succ']
  · rw [Program.caught, Program.restart, h.cout, List.append_assoc, List.replicate_succ']

/-- What leaves the program as it is raises no exception. -/
theorem Program.raises_still {H : Host} {R : Ready} {p : Program} {x : Happening}
    (h : Program.step H R p x = (p, none)) : Program.raises R (Machine.event (Program.step H R) p x) = false := by
  rw [Machine.event, h]
  cases x with
  | start bound =>
    cases hphase : p.phase with
    | serving l => simp only [Program.raises, hphase]
    | starting u next =>
      simp only [Program.raises, hphase, Bool.not_eq_false', decide_eq_true_eq]
      by_contra hbound
      rw [Program.step, hphase] at h
      dsimp only at h
      rw [if_neg hbound] at h
      have hcerr : p.cerr ++ [ascii "Server is down. :/"] = p.cerr := congrArg (fun q => q.1.cerr) h
      simp at hcerr
  | completion c => cases hphase : p.phase <;> simp [Program.raises, hphase]
  | idle => cases hphase : p.phase <;> simp only [Program.raises, hphase]

/-- A happening that raises an exception is announced, and no other is. -/
theorem Program.down_step {H : Host} {R : Ready} {s : Setup} {p : Program} {k : ℕ} (hp : p.Good H R)
    (hk : p.Down s k) (x : Happening) :
    (Program.step H R p x).1.Down s (k + (Program.raises R (Machine.event (Program.step H R) p x)).toNat) := by
  rcases Program.step_moves hp x with hmove | heq
  · simp only [Machine.event]
    generalize (Program.step H R p x).1 = p' at hmove ⊢
    generalize (Program.step H R p x).2 = o at hmove ⊢
    cases hmove with
    | launched hphase hbound =>
      simp only [Program.raises, hphase, decide_eq_true hbound]
      exact ⟨hk.cerr, hk.cout⟩
    | unbound hphase hbound =>
      simp only [Program.raises, hphase, decide_eq_false hbound]
      exact hk.caught _ _
    | @ran l c hphase hup =>
      have hsilent := Bool.eq_false_iff.mpr (mt (Loop.threw_iff (hp l hphase).1 (R.seen c)).mp hup)
      simp only [Program.raises, hphase, hsilent]
      exact ⟨hk.cerr, hk.cout⟩
    | @threw l c hphase hdown =>
      simp only [Program.raises, hphase, (Loop.threw_iff (hp l hphase).1 (R.seen c)).mpr hdown]
      exact hk.caught _ _
    | ranOut hphase hnil => exact absurd hnil (Program.accepts_ne hp hphase)
  · rw [Program.raises_still heq, heq]
    exact hk

/-- A refusal, by a command that could not open the database in its `n`-th attempt. -/
def Refusal (e : Env) (n : ℕ) (s : Sent) : Prop :=
  (s.data = ascii "err 1" ∨ s.data = ascii "wrong") ∧ e.opens n ≠ .ok

namespace Spec
variable {H : Host} {e : Env} {n : ℕ} {a b : State}

/-- Nothing is stored, and nothing but refusals is sent. -/
structure Barred (e : Env) (n : ℕ) (a b : State) : Prop where
  users : b.users = a.users
  sent : ∀ s ∈ b.sent, s ∈ a.sent ∨ Refusal e n s

theorem Barred.refl (a : State) : Barred e n a a := ⟨rfl, fun _ hs => Or.inl hs⟩

theorem Barred.trans {c : State} (h : Barred e n a b) (h' : Barred e n b c) : Barred e n a c :=
  ⟨h'.users.trans h.users, fun s hs => (h'.sent s hs).elim (h.sent s) Or.inr⟩

theorem barred_opened (a : State) : Barred e n a a.opened := ⟨rfl, fun _ hs => Or.inl hs⟩

theorem run_barred (he : ∀ n, e.stmts n ≠ none) (q : Query) (a : State) :
    (a.run e q).failed = true ∧ Barred e n a (a.run e q) := by
  rcases run_cases (e := e) q a with ⟨-, -, hnone, -⟩ | heq
  · exact absurd hnone (he _)
  · rw [heq]
    exact ⟨rfl, rfl, fun _ hs => Or.inl hs⟩

theorem init_barred (he : ∀ n, e.stmts n ≠ none) (ip : Bytes) (a : State) : Barred e n a (initUser H e ip a) := by
  have hlookup : ∀ b : State, b.lookup e ip = none := fun b => by
    rw [State.lookup, (run_barred (n := n) he _ b).1, if_pos rfl]
  rw [initUser]
  split
  · simp only [hlookup]
    exact (((barred_opened a).trans (run_barred he _ _).2).trans (run_barred he _ _).2).trans (run_barred he _ _).2
  · exact barred_opened a

theorem store_barred (he : ∀ n, e.stmts n ≠ none) (s ip : Bytes) (a : State) :
    Barred e n a (storeCoordinates e s ip a) := by
  rw [storeCoordinates]
  split
  · exact (barred_opened a).trans (run_barred he _ _).2
  · exact barred_opened a

theorem storeHalf_barred (he : ∀ n, e.stmts n ≠ none) {coordinates : Option Bytes} (h : storeHalf e coordinates a = .ok b) :
    Barred e n a b := by
  cases coordinates with
  | none =>
    cases h
    exact .refl a
  | some s =>
    rw [storeHalf] at h
    cases hip : e.remote with
    | error err =>
      rw [hip] at h
      cases h
    | ok ip =>
      rw [hip] at h
      cases h
      exact store_barred he s _ a

/-- A credential check comes to an error, or the database could not be opened. -/
theorem authenticate_barred (he : ∀ n, e.stmts n ≠ none) (id pass : Bytes) {d : Bytes}
    (hd : d = ascii "err 1" ∨ d = ascii "wrong") (grant : State → State) (a : State) :
    Barred e a.opens a (authenticate H e id pass (State.send e d) grant a) := by
  obtain ⟨hfailed, hrun⟩ := run_barred (n := a.opens) he (.selectCredential id (hashText H pass)) a.opened
  rw [authenticate]
  split
  · simp only [hfailed, if_true]
    exact (barred_opened a).trans hrun
  · rename_i hopen
    split
    · exact barred_opened a
    · refine ⟨rfl, fun s hs => ?_⟩
      rcases List.mem_append.mp hs with hs | hs
      · exact Or.inl hs
      · rw [List.mem_singleton.mp hs]
        refine Or.inr ⟨hd, fun hok => hopen ?_⟩
        rw [State.connects, hok]

theorem get_barred (he : ∀ n, e.stmts n ≠ none) (id pass : Bytes) (a : State) :
    Barred e a.opens a (getFriendCoordinates H e id pass a) :=
  authenticate_barred he id pass (Or.inl rfl) _ a

theorem check_barred (he : ∀ n, e.stmts n ≠ none) (id pass : Bytes) (a : State) :
    Barred e a.opens a (checkFriendIdAndPassword H e id pass a) :=
  authenticate_barred he id pass (Or.inr rfl) _ a

theorem handle_barred (he : ∀ n, e.stmts n ≠ none) {c : Command} {u : Users} (h : handle H e c (start u) = .ok b) :
    Barred e c.asking (start u) b := by
  cases c with
  | nothing =>
    cases h
    exact .refl _
  | init =>
    rw [handle] at h
    cases hip : e.remote with
    | error err =>
      rw [hip] at h
      cases h
    | ok ip =>
      rw [hip] at h
      cases h
      exact init_barred he _ _
  | get id pass =>
    cases h
    exact get_barred he id pass (start u)
  | check id pass =>
    cases h
    exact check_barred he id pass (start u)
  | storeAndGet coordinates friend =>
    rw [handle] at h
    cases hhalf : storeHalf e coordinates (start u) with
    | error err =>
      rw [hhalf] at h
      cases h
    | ok b' =>
      rw [hhalf] at h
      cases h
      have hstored : Barred e (Command.storeAndGet coordinates friend).asking (start u) b' :=
        storeHalf_barred he hhalf
      cases friend with
      | none => exact hstored
      | some f =>
        have hdenied := get_barred (H := H) he f.1 f.2 b'
        rw [storeHalf_opens (some f) hhalf] at hdenied
        exact hstored.trans hdenied

end Spec

theorem tableless_request (H : Host) (u : Users) (r : Request) :
    (handleRequest H u r.tableless).1 = u ∧
      ∀ s ∈ (handleRequest H u r.tableless).2.sent, Refusal r.env r.command.asking s := by
  have hstmts : ∀ n, r.tableless.env.stmts n ≠ none := fun n => Option.some_ne_none _
  cases hreq : Spec.request H u r.tableless with
  | ok b =>
    obtain ⟨husers, -, hsent⟩ := request_done hreq
    have hbarred := Spec.handle_barred hstmts hreq
    rw [husers, hsent]
    exact ⟨hbarred.users, fun s hs => (hbarred.sent s hs).resolve_left (by simp [Spec.start])⟩
  | error err =>
    obtain ⟨husers, -, hsent⟩ := request_threw hreq
    rw [husers, hsent]
    exact ⟨rfl, by simp⟩

/-- On a file that can be opened: the CREATE is handed to the one connection made, which is closed
    again. -/
theorem init_opened {file : Bytes} (hfile : file ≠ []) (create : Option SqlError) (db : Database) :
    init_server_db file .ok create db
      = (true, if file = memoryName then none else if create.isNone then some (db.getD .empty) else db,
        ⟨[some 0], [0]⟩,
        [⟨⟨createUsers, [], createUsers⟩, some 0, (create.map fun err => err.code.1).getD 0⟩]) := by
  have hopen : (SQLConnection.new file).open_ .ok ⟨[], []⟩
      = (⟨some 0, file, 0, true⟩, ⟨[some 0], []⟩, true) := by
    rw [SQLConnection.open_]
    exact (if_neg Bool.false_ne_true).trans (if_neg hfile)
  rw [init_server_db, hopen]
  cases create <;> rfl

/-- With good options and a file that can be opened `main` goes on to its loop, however its CREATE
    went. -/
theorem prepare_opened {args : List CString} {s : Setup} (hargs : setup_args args Settings.initial.silent = (s, true))
    (create : Option SqlError) (db : Database) :
    ∃ R : Ready, prepare args .ok create db = (s, .ok R) ∧ R.toSettings = s.toSettings ∧
      R.database = if s.db_filename = memoryName then none
        else if create.isNone then some (db.getD .empty) else db := by
  rw [prepare]
  split
  · rename_i s' hargs'
    cases hargs.symm.trans hargs'
  · rename_i s' hargs'
    cases hargs.symm.trans hargs'
    simp only [init_opened (accepted_settings hargs).2]
    exact ⟨_, rfl, rfl, rfl⟩

/-- Refused options, and a file that cannot be opened. -/
theorem prepare_refused {args : List CString} {s : Setup} (hargs : setup_args args Settings.initial.silent = (s, false))
    (o : OpenOutcome) (create : Option SqlError) (db : Database) :
    prepare args o create db = (s.error (ascii "Unable to setup command line arguments!"), .error 1) := by
  rw [prepare]
  split
  · rename_i s' hargs'
    cases hargs.symm.trans hargs'
    rfl
  · rename_i s' hargs'
    cases hargs.symm.trans hargs'

theorem prepare_unopened {args : List CString} {s : Setup} (hargs : setup_args args Settings.initial.silent = (s, true))
    (code : ErrCode) (null : Bool) (create : Option SqlError) (db : Database) :
    prepare args (.fail code null) create db
      = (s.error (ascii "Unable to connect to the database!\nFilename: " ++ s.db_filename), .error 2) := by
  have hinit : (init_server_db s.db_filename (.fail code null) create db).1 = false := by
    have hopen : ((SQLConnection.new s.db_filename).open_ (.fail code null) ⟨[], []⟩).2.2 = false := by
      have hname : (SQLConnection.new s.db_filename).filename_ ≠ [] := (accepted_settings hargs).2
      rw [SQLConnection.open_, if_neg (by exact Bool.false_ne_true), if_neg hname]
      exact beq_eq_false_iff_ne.mpr code.2
    rw [init_server_db]
    simp only [hopen, Bool.not_false, if_true]
  rw [prepare]
  split
  · rename_i s' hargs'
    cases hargs.symm.trans hargs'
  · rename_i s' hargs'
    cases hargs.symm.trans hargs'
    rcases hstep : init_server_db s.db_filename (.fail code null) create db with ⟨opened, rest⟩
    rw [hstep] at hinit
    cases hinit
    rfl

/-- Without a table nothing is stored in any run, and nothing but refusals is sent. -/
theorem Program.tableless {H : Host} {R : Ready} (hnone : R.database = none) (s : Setup) (hs : List Happening) :
    (Machine.final (Program.step H R) (Program.first R s) hs).users = Users.empty ∧
      ∀ ev ∈ Machine.trace (Program.step H R) (Program.first R s) hs, ∀ x ∈ Program.handles R ev,
        ∀ sent ∈ x.2.sent, Refusal x.1.env x.1.command.asking sent := by
  -- every request handled is one that met no table
  have hshown : ∀ {p : Program} {x : Happening} {y : Request × Outcome}, p.Good H R →
      Program.handles R (Machine.event (Program.step H R) p x) = some y →
      (Program.step H R p x).1.users = p.users ∧ ∀ sent ∈ y.2.sent, Refusal y.1.env y.1.command.asking sent := by
    intro p x y hgood hy
    have hstep := Program.step_shown hgood hy
    obtain ⟨r, hr⟩ := Program.handles_faced hy
    have hfaced : y.1 = r.tableless := by
      rw [hr, Ready.faced, hnone]
      rfl
    obtain ⟨husers, hsent⟩ := tableless_request (R.host H) p.users r
    rw [hfaced] at hstep ⊢
    rw [hstep] at husers hsent
    exact ⟨husers, hsent⟩
  have hkeep : ∀ (p : Program) (x : Happening), p.Good H R ∧ p.users = Users.empty →
      (Program.step H R p x).1.Good H R ∧ (Program.step H R p x).1.users = Users.empty := by
    rintro p x ⟨hgood, hempty⟩
    refine ⟨Program.good_step hgood x, ?_⟩
    cases hshow : Program.handles R (Machine.event (Program.step H R) p x) with
    | none => rw [Program.step_silent hgood hshow, hempty]
    | some y => rw [(hshown hgood hshow).1, hempty]
  have hfirst : (Program.first R s).Good H R ∧ (Program.first R s).users = Users.empty := by
    refine ⟨Program.good_first s, ?_⟩
    rw [Program.first, Program.users, hnone]
    rfl
  refine ⟨(Machine.inv_final hkeep hs hfirst).2, fun ev hev x hx => ?_⟩
  obtain ⟨before, y, after, -, rfl⟩ := Machine.exists_of_mem_trace hev
  exact (hshown (Machine.inv_final hkeep before hfirst).1 hx).2

/-- If the CREATE fails on a file without a table, and whenever the database is one in memory, the servers come up
    all the same, and in every run of the program no request stores anything, and the only replies are refusals
    by requests that could not open the database. -/
theorem missing_table (H : Host) {args : List CString} {s : Setup}
    (hargs : setup_args args Settings.initial.silent = (s, true)) {create : Option SqlError} {db : Database}
    (hmissing : s.db_filename = memoryName ∨ (create ≠ none ∧ db = none)) :
    ∃ R : Ready, prepare args .ok create db = (s, .ok R) ∧ R.toSettings = s.toSettings ∧
      ∀ hs : List Happening,
        (Machine.final (Program.step H R) (Program.first R s) hs).users = Users.empty ∧
        ∀ ev ∈ Machine.trace (Program.step H R) (Program.first R s) hs, ∀ x ∈ Program.handles R ev,
          ∀ sent ∈ x.2.sent, Refusal x.1.env x.1.command.asking sent := by
  obtain ⟨R, hready, hsettings, hdatabase⟩ := prepare_opened hargs create db
  refine ⟨R, hready, hsettings, fun hs => Program.tableless ?_ s hs⟩
  rw [hdatabase]
  rcases hmissing with hmemory | ⟨hfails, rfl⟩
  · exact if_pos hmemory
  · cases create with
    | none => exact absurd rfl hfails
    | some err => simp

/-- No options, and a file that is locked while the CREATE runs. -/
theorem missing_table_locked : ∃ R : Ready,
    prepare [] .ok (some busyError) none = (Settings.initial.silent, .ok R) ∧
      ∀ hs : List Happening, (Machine.final (Program.step Host.small R) (Program.first R Settings.initial.silent) hs).users
        = Users.empty := by
  have hargs : setup_args [] Settings.initial.silent = (Settings.initial.silent, true) := rfl
  have hfails : some busyError ≠ none ∧ (none : Database) = none := ⟨nofun, rfl⟩
  obtain ⟨R, hready, -, hrun⟩ := missing_table Host.small hargs (Or.inr hfails)
  exact ⟨R, hready, fun hs => (hrun hs).1⟩

end MarkMe

import MarkMe.Service

/-! Processes that come and go.

    The program keeps nothing of its own. A process can be stopped between two handlers and another
    one started on the same file, with other options and another number of servers, and the clients
    find the service as they left it. A process that is refused its options or its file leaves every
    file as it is, and each file is a service of its own.

        users.db   ──process──▶ · ─────────────▶ · ──process──▶ ·
        other.db   ─────────────▶ · ──process──▶ · ─────────────▶ · -/

namespace MarkMe
open Text Session

/-- A process: its options, how `init_server_db` fares with its file, and what happens until it is
    stopped. -/
structure Process where
  args : List CString
  opened : OpenOutcome
  create : Option SqlError
  occurrences : List Occurrence

/-- The files by their names, which are taken to be of different files. -/
abbrev Files := Bytes → Database

/-- The file of the `-db` option. -/
def Process.file (p : Process) : Bytes := (setup_args p.args Settings.initial.silent).1.db_filename

/-- The requests the program of a process handles, and what they come to. -/
def Process.handled (H : Host) (p : Process) (s : Setup) (R : Ready) : List (Request × Outcome) :=
  (Machine.trace (Program.step H R) (Program.first R s) (p.occurrences.map Occurrence.happening)).filterMap
    (Program.handles R)

/-- What a process makes of the files, and what it sends. -/
def live (H : Host) (fs : Files) (p : Process) : Files × List Sent :=
  match prepare p.args p.opened p.create (fs p.file) with
  | (_, .error _) => (fs, [])
  | (s, .ok R) =>
    let run := Machine.final (Program.step H R) (Program.first R s) (p.occurrences.map Occurrence.happening)
    (Function.update fs p.file (R.database.map fun _ => run.users), (p.handled H s R).flatMap fun x => x.2.sent)

/-- The process serves the visits `vs`: of those it receives the ones that its program handles, and none
    if it ends before its loop or comes to it without a table. -/
structure Attends (H : Host) (fs : Files) (p : Process) (vs : List Visit) : Prop where
  received : vs.Sublist (p.occurrences.filterMap Occurrence.visit)
  refused : (setup_args p.args Settings.initial.silent).2 = false ∨ p.opened ≠ .ok →
    ∃ s code, prepare p.args p.opened p.create (fs p.file) = (s, .error code)
  ended : ∀ s code, prepare p.args p.opened p.create (fs p.file) = (s, .error code) → vs = [] ∧ live H fs p = (fs, [])
  tableless : ∀ s R, prepare p.args p.opened p.create (fs p.file) = (s, .ok R) → R.database = none →
    vs = [] ∧ live H fs p = (fs, [])
  handled : ∀ s R, prepare p.args p.opened p.create (fs p.file) = (s, .ok R) → R.database ≠ none →
    (p.handled H s R).map Prod.fst = vs.map Visit.request
  /-- One more client would have been served. -/
  more : ∀ s R, prepare p.args p.opened p.create (fs p.file) = (s, .ok R) → R.database ≠ none →
    ∀ i < R.servers, ∃ sid, ∀ v,
      (Process.handled H { p with occurrences := p.occurrences ++ Occurrence.client i sid v } s R).map Prod.fst
        = (vs ++ [v]).map Visit.request

/-- The services of all files, of which one gets some visits. -/
def attend (H : Host) (G : Bytes → Clients) (x : Bytes × List Visit) : (Bytes → Clients) × List Sent :=
  (Function.update G x.1 (Machine.final (serve H) (G x.1) (x.2.map Visit.asks)),
    (Machine.trace (serve H) (G x.1) (x.2.map Visit.asks)).flatMap fun ev => deliver ev.out)

/-- Every file stands for its service; in memory nothing is kept. -/
structure Hosts (fs : Files) (G : Bytes → Clients) : Prop where
  represents : ∀ file, Represents ((fs file).getD .empty) (G file)
  memory : fs memoryName = none

theorem hosts_none : Hosts (fun _ => none) (fun _ => Registry.empty) := ⟨fun _ => represents_empty, rfl⟩

section
variable {H : Host} {fs : Files} {G : Bytes → Clients}

theorem attend_nobody (H : Host) (G : Bytes → Clients) (file : Bytes) : attend H G (file, []) = (G, []) := by
  rw [attend]
  exact Prod.ext (Function.update_eq_self file G) rfl

/-- A program without a table sends nothing to clients that can open the database. -/
theorem tableless_silent {R : Ready} (hnone : R.database = none) (s : Setup) (p : Process) :
    (p.handled H s R).flatMap (fun x => x.2.sent) = [] := by
  rw [List.flatMap_eq_nil_iff]
  intro y hy
  obtain ⟨ev, hev, hshow⟩ := List.mem_filterMap.mp hy
  have hrefusals := (Program.tableless (H := H) hnone s (p.occurrences.map Occurrence.happening)).2 ev hev y hshow
  obtain ⟨before, x, after, hxs, rfl⟩ := Machine.exists_of_mem_trace hev
  obtain ⟨x, -, rfl⟩ : ∃ i ∈ p.occurrences, i.happening = x :=
    List.mem_map.mp (hxs ▸ List.mem_append_right _ List.mem_cons_self)
  obtain ⟨v, -, hv⟩ := handles_visit hshow
  refine List.eq_nil_iff_forall_not_mem.mpr fun sent hsent => ?_
  obtain ⟨-, hopen⟩ := hrefusals sent hsent
  rw [hv, Ready.faced, hnone] at hopen
  exact hopen (v.calm.opens (Request.command v.request.tableless).asking)

section
variable {p : Process} {s : Setup} {R : Ready}

/-- A process that ends before its loop has served nobody. -/
theorem attends_ended {code : ℤ} (hprepare : prepare p.args p.opened p.create (fs p.file) = (s, .error code)) :
    Attends H fs p [] ∧ live H fs p = (fs, []) := by
  have hlive : live H fs p = (fs, []) := by rw [live, hprepare]
  have hloop : ∀ s' R', prepare p.args p.opened p.create (fs p.file) ≠ (s', .ok R') := by
    intro s' R' hready
    cases hprepare.symm.trans hready
  refine ⟨?_, hlive⟩
  exact {
    received := List.nil_sublist _
    refused := fun _ => ⟨s, code, hprepare⟩
    ended := fun _ _ _ => ⟨rfl, hlive⟩
    tableless := fun s' R' hready => absurd hready (hloop s' R')
    handled := fun s' R' hready => absurd hready (hloop s' R')
    more := fun s' R' hready => absurd hready (hloop s' R') }

variable (hready : prepare p.args p.opened p.create (fs p.file) = (s, .ok R))
  (hrefused : ¬ ((setup_args p.args Settings.initial.silent).2 = false ∨ p.opened ≠ .ok))
include hready hrefused

/-- Neither has one that comes to its loop without a table. -/
theorem attends_tableless (hR : R.database = none) (hnone : fs p.file = none) :
    Attends H fs p [] ∧ live H fs p = (fs, []) := by
  have hlive : live H fs p = (fs, []) := by
    rw [live, hready]
    dsimp only
    rw [hR, tableless_silent hR, Option.map_none, ← hnone, Function.update_eq_self]
  have hsame : ∀ {s' R'}, prepare p.args p.opened p.create (fs p.file) = (s', .ok R') → R'.database = none := by
    intro s' R' hready'
    cases hready.symm.trans hready'
    exact hR
  refine ⟨?_, hlive⟩
  exact {
    received := List.nil_sublist _
    refused := fun h => absurd h hrefused
    ended := fun _ _ _ => ⟨rfl, hlive⟩
    tableless := fun _ _ _ _ => ⟨rfl, hlive⟩
    handled := fun _ _ hready' hne => absurd (hsame hready') hne
    more := fun _ _ hready' hne => absurd (hsame hready') hne }

/-- One with a table serves the service of its file. -/
theorem attends_serves (h : Hosts fs G) {u : Users} (hR : R.database = some u) (hne : p.file ≠ memoryName)
    (hdb : Represents u (G p.file)) : ∃ vs : List Visit, Attends H fs p vs ∧
      Hosts (live H fs p).1 (attend H G (p.file, vs)).1 ∧ (live H fs p).2 = (attend H G (p.file, vs)).2 := by
  obtain ⟨vs, hvs, hfinal, hrequests, hsent⟩ := serves_visits (H := H) hR hdb s p.occurrences
  have hattends : Attends H fs p vs := by
    refine ⟨hvs, fun h => absurd h hrefused, fun s' code hended => ?_, fun s' R' hready' hnone => ?_,
      fun s' R' hready' _ => ?_, fun s' R' hready' _ i hi => ?_⟩
    · cases hready.symm.trans hended
    · cases hready.symm.trans hready'
      rw [hR] at hnone
      cases hnone
    · cases hready.symm.trans hready'
      exact hrequests
    · cases hready.symm.trans hready'
      exact client_comes s hR hrequests hi
  rw [live, hready]
  dsimp only
  rw [hR]
  refine ⟨vs, hattends, ⟨fun file => ?_, ?_⟩, ?_⟩
  · rw [attend]
    rcases eq_or_ne file p.file with rfl | hother
    · simpa using hfinal
    · simpa [hother] using h.represents file
  · simpa [hne.symm] using h.memory
  · rw [attend, Process.handled, List.flatMap_def, hsent, ← List.flatMap_def]

end

/-- A process serves the visits that its program handles. -/
theorem live_attends (h : Hosts fs G) (p : Process) : ∃ vs : List Visit, Attends H fs p vs ∧
    Hosts (live H fs p).1 (attend H G (p.file, vs)).1 ∧ (live H fs p).2 = (attend H G (p.file, vs)).2 := by
  have hnobody : Attends H fs p [] ∧ live H fs p = (fs, []) → ∃ vs : List Visit, Attends H fs p vs ∧
      Hosts (live H fs p).1 (attend H G (p.file, vs)).1 ∧ (live H fs p).2 = (attend H G (p.file, vs)).2 := by
    rintro ⟨hattends, hlive⟩
    refine ⟨[], hattends, ?_⟩
    rw [attend_nobody, hlive]
    exact ⟨h, rfl⟩
  rcases hargs : setup_args p.args Settings.initial.silent with ⟨s, _ | _⟩
  · exact hnobody (attends_ended (prepare_refused hargs p.opened p.create (fs p.file)))
  cases hopened : p.opened with
  | fail code null =>
    have hprepare := prepare_unopened hargs code null p.create (fs p.file)
    exact hnobody (attends_ended (hopened ▸ hprepare))
  | ok =>
    have hfile : p.file = s.db_filename := by rw [Process.file, hargs]
    have hrefused : ¬ ((setup_args p.args Settings.initial.silent).2 = false ∨ p.opened ≠ .ok) := by
      rw [hargs, hopened]
      simp
    obtain ⟨R, hready, -, hdatabase⟩ := prepare_opened hargs p.create (fs p.file)
    rw [← hopened] at hready
    rw [← hfile] at hdatabase
    cases hR : R.database with
    | none =>
      refine hnobody (attends_tableless hready hrefused hR ?_)
      rw [hR] at hdatabase
      split at hdatabase
      · rename_i hmemory
        rw [hmemory]
        exact h.memory
      · split at hdatabase
        · cases hdatabase
        · exact hdatabase.symm
    | some u =>
      rw [hR] at hdatabase
      have hne : p.file ≠ memoryName := fun hmemory => by
        rw [if_pos hmemory] at hdatabase
        cases hdatabase
      refine attends_serves hready hrefused h hR hne ?_
      have hrep := h.represents p.file
      rw [if_neg hne] at hdatabase
      split at hdatabase
      · cases hdatabase
        exact hrep
      · rwa [← hdatabase] at hrep

theorem lives_attend (h : Hosts fs G) (ps : List Process) : ∃ sessions : List (Bytes × List Visit),
    List.Forall₂ (fun ev x => x.1 = ev.input.file ∧ Attends H ev.pre ev.input x.2) (Machine.trace (live H) fs ps) sessions ∧
    Hosts (Machine.final (live H) fs ps) (Machine.final (attend H) G sessions) ∧
    (Machine.trace (live H) fs ps).map (fun ev => ev.out) = (Machine.trace (attend H) G sessions).map (fun ev => ev.out) := by
  induction ps generalizing fs G with
  | nil => exact ⟨[], .nil, h, rfl⟩
  | cons p ps ih =>
    obtain ⟨vs, hattends, hhosts, hsent⟩ := live_attends (H := H) h p
    obtain ⟨sessions, hsessions, hfinal, htrace⟩ := ih hhosts
    refine ⟨(p.file, vs) :: sessions, .cons ⟨rfl, hattends⟩ hsessions, hfinal, ?_⟩
    rw [Machine.trace, List.map_cons, Machine.trace, List.map_cons, htrace]
    exact congrArg (· :: _) hsent

end

/-- Without failures in the requests the service outlives the processes: whatever processes come, with whatever
    options and on whatever files, and whenever each of them is stopped, every file stands for the service that has
    got the visits which the programs on that file have handled, in their order, and the replies are that
    service's. A process that is refused its options or its file has served nobody and left every file as it was. -/
theorem restarts_keep_service (H : Host) (ps : List Process) :
    ∃ sessions : List (Bytes × List Visit),
      List.Forall₂ (fun ev x => x.1 = ev.input.file ∧ Attends H ev.pre ev.input x.2)
        (Machine.trace (live H) (fun _ => none) ps) sessions ∧
      (∀ file, Represents ((Machine.final (live H) (fun _ => none) ps file).getD .empty)
        (Machine.final (attend H) (fun _ => Registry.empty) sessions file)) ∧
      (Machine.trace (live H) (fun _ => none) ps).map (fun ev => ev.out)
        = (Machine.trace (attend H) (fun _ => Registry.empty) sessions).map (fun ev => ev.out) := by
  obtain ⟨sessions, hsessions, hhosts, hsent⟩ := lives_attend (H := H) hosts_none ps
  exact ⟨sessions, hsessions, hhosts.represents, hsent⟩

end MarkMe

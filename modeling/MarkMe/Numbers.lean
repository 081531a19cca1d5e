import MarkMe.Arguments

/-! Whether accepted numbers are used as written.

    What is written after `-srv=` or `-port=` passes the regex, `std::stoi` and, for the port, the
    conversion to an `unsigned short`. Three kinds of text come through changed: one that is not all
    digits, of which `stoi` reads a part or which the regex splits elsewhere; a port 0, which the check
    lets pass; and a port from 65536 on. With several ports the last one counts.

        -port=80x      80        -port=0      0        -port=65616      80 -/

namespace MarkMe
open Text

/-- What is written after `-name=`. -/
def texts (name : Bytes) (args : List CString) : List Bytes :=
  args.filterMap fun argv => argv.bytes.dropPrefix? (named name [])

/-- The options that take a number. -/
def numberNames : List Bytes := [ascii "srv", ascii "port"]

/-- All numbers are positive numerals in full, and the servers listen on the port written. -/
structure AsWritten (args : List CString) (t : Settings) : Prop where
  numerals : ∀ name ∈ numberNames, ∀ v ∈ texts name args, isNumeral v = true ∧ 0 < decVal v
  listens : ∀ v ∈ (texts (ascii "port") args).getLast?, ∀ p ∈ start t.count_servers t.server_port, p.toNat = decVal v

/-- No number has anything but digits, no port is 0, and the last one is below 65536. -/
structure Plain (args : List CString) : Prop where
  digits : ∀ name ∈ numberNames, ∀ v ∈ texts name args, ∀ b ∈ v, isDigit b = true
  nonzero : ∀ v ∈ texts (ascii "port") args, decVal v ≠ 0
  fits : ∀ v ∈ (texts (ascii "port") args).getLast?, decVal v < 65536

/-! ### One argument -/

theorem text_iff {s name v : Bytes} : s.dropPrefix? (named name []) = some v ↔ s = named name v := by
  have hnamed : named name v = named name [] ++ v := by simp [named]
  rw [List.dropPrefix?_eq_some_iff, hnamed]
  constructor
  · rintro ⟨p, rfl, hp⟩
    rw [eq_of_beq hp]
  · intro h
    exact ⟨_, h, beq_self_eq_true _⟩

section
variable {argv : CString} {s t : Setup} {name v : Bytes}

/-- An accepted argument with digits only is read as it stands. -/
theorem accepted_text (h : setup_arg argv s = (t, true)) (hname : name ∈ optionNames)
    (htext : argv.bytes = named name v) (hdigits : ∀ b ∈ v, isDigit b = true) :
    isNumeral v = true ∧ Setup.Accepts s name v t := by
  obtain ⟨n, w, hmatch, haccepts⟩ := setup_arg_accepts h
  obtain ⟨heq, -, hvalue, -, -⟩ := arg_iff.mp hmatch
  rw [htext, named_eq, named_eq, List.cons.injEq] at heq
  rcases Backtrack.split_later heq.2.symm (option_name hname).2.2.1 with ⟨rfl, rfl⟩ | ⟨x, -, rfl⟩
  · exact ⟨numeral_iff.mpr ⟨hvalue, hdigits⟩, haccepts⟩
  · exact absurd (hdigits 61 (by simp)) (by decide)

/-- `stoi` reads a numeral as its value. -/
theorem stoi_eq {n : ℤ} (hnum : isNumeral v = true) (h : stoi v = .ok n) : n = decVal v := by
  rw [stoi_numeral hnum] at h
  split at h
  · cases h
  · exact (Except.ok.inj h).symm

theorem accepted_srv (hnum : isNumeral v = true) (h : s.Accepts (ascii "srv") v t) :
    0 < decVal v := by
  generalize hname : ascii "srv" = n at h
  cases h with
  | srv hn hpos =>
    rw [stoi_eq hnum hn] at hpos
    omega
  | db => exact absurd hname (by decide)
  | port _ _ => exact absurd hname (by decide)
  | unrecognized hother _ => exact absurd (hname ▸ List.mem_cons_self) hother

theorem accepted_port (hnum : isNumeral v = true) (h : s.Accepts (ascii "port") v t) :
    t.server_port = decVal v := by
  generalize hname : ascii "port" = n at h
  cases h with
  | srv _ _ => exact absurd hname (by decide)
  | db => exact absurd hname (by decide)
  | port hn _ => exact stoi_eq hnum hn
  | unrecognized hother _ => exact absurd (hname ▸ by simp [optionNames]) hother

/-- An argument that is no port keeps the port. -/
theorem accepted_other (h : setup_arg argv s = (t, true))
    (hother : argv.bytes.dropPrefix? (named (ascii "port") []) = none) : t.server_port = s.server_port := by
  obtain ⟨n, w, hmatch, haccepts⟩ := setup_arg_accepts h
  cases haccepts with
  | srv _ _ => rfl
  | db => rfl
  | port _ _ =>
    rw [text_iff.mpr (arg_iff.mp hmatch).1] at hother
    cases hother
  | unrecognized _ heq => exact congrArg Settings.server_port heq

end

/-! ### All arguments -/

section
variable {args : List CString} {s t : Setup}

/-- Every argument of an accepted list has been accepted. -/
theorem loop_accepted : ∀ {args : List CString} {s t : Setup}, setup_loop args s = (t, true) →
    ∀ argv ∈ args, ∃ s' t', setup_arg argv s' = (t', true)
  | [], _, _, _ => by simp
  | argv :: args, s, t, h => by
    obtain ⟨s', hstep, hrest⟩ := setup_loop_cons h
    rw [List.forall_mem_cons]
    exact ⟨⟨s, s', hstep⟩, loop_accepted hrest⟩

/-- The last port counts. -/
theorem loop_port : ∀ {args : List CString} {s t : Setup}, setup_loop args s = (t, true) →
    (∀ v ∈ texts (ascii "port") args, ∀ b ∈ v, isDigit b = true) →
      t.server_port = ((texts (ascii "port") args).getLast?.map fun v => (decVal v : ℤ)).getD s.server_port
  | [], _, _, h, _ => by
    cases h
    rfl
  | argv :: args, s, t, h, hdigits => by
    obtain ⟨s', hstep, hrest⟩ := setup_loop_cons h
    rw [texts, List.filterMap_cons] at hdigits ⊢
    cases htext : argv.bytes.dropPrefix? (named (ascii "port") []) with
    | none =>
      rw [htext] at hdigits
      rw [← accepted_other hstep htext]
      exact loop_port hrest hdigits
    | some v =>
      rw [htext, List.forall_mem_cons] at hdigits
      have ih := loop_port hrest hdigits.2
      obtain ⟨hnum, haccepts⟩ := accepted_text hstep (by decide) (text_iff.mp htext) hdigits.1
      rw [ih, accepted_port hnum haccepts, List.getLast?_cons, Option.map_some, Option.getD_some, texts]
      exact Option.getD_map _ _ _

/-- Accepted digits are numerals, and positive unless they are a port. -/
theorem accepted_numerals (h : setup_args args s = (t, true)) {name v : Bytes} (hname : name ∈ numberNames)
    (hv : v ∈ texts name args) (hdigits : ∀ b ∈ v, isDigit b = true) :
    isNumeral v = true ∧ (name = ascii "srv" → 0 < decVal v) := by
  obtain ⟨argv, hargv, htext⟩ := List.mem_filterMap.mp hv
  obtain ⟨s', t', hstep⟩ := loop_accepted (args_loop h) argv hargv
  have hoption : name ∈ optionNames := by
    simp only [numberNames, optionNames, List.mem_cons, List.not_mem_nil, or_false] at hname ⊢
    exact hname.imp id Or.inr
  obtain ⟨hnum, haccepts⟩ := accepted_text hstep hoption (text_iff.mp htext) hdigits
  refine ⟨hnum, ?_⟩
  rintro rfl
  exact accepted_srv hnum haccepts

end

theorem endpoint_port_natCast (n : ℕ) : (endpoint_port n).toNat = n % 65536 := by
  rw [endpoint_port, UInt16.ofInt, UInt16.toNat_ofNat']
  omega

/-- The numbers of an accepted list are used as written exactly if they are plain. -/
theorem as_written_iff (args : List CString) (t : Setup)
    (h : setup_args args Settings.initial.silent = (t, true)) : AsWritten args t.toSettings ↔ Plain args := by
  constructor
  · intro hwritten
    refine ⟨fun name hname v hv => ?_, fun v hv => ?_, fun v hv => ?_⟩
    · exact (numeral_iff.mp (hwritten.numerals name hname v hv).1).2
    · exact Nat.ne_of_gt (hwritten.numerals (ascii "port") (by decide) v hv).2
    · -- there is a server that listens on it
      have hservers := (accepted_settings h).1
      have hstart : endpoint_port t.server_port ∈ start t.count_servers t.server_port :=
        List.mem_map.mpr ⟨0, List.mem_range.mpr (by omega), rfl⟩
      rw [← hwritten.listens v hv _ hstart]
      exact UInt16.toNat_lt _
  · intro hplain
    refine ⟨fun name hname v hv => ?_, fun v hv p hp => ?_⟩
    · obtain ⟨hnum, hpos⟩ := accepted_numerals h hname hv (hplain.digits name hname v hv)
      refine ⟨hnum, ?_⟩
      simp only [numberNames, List.mem_cons, List.not_mem_nil, or_false] at hname
      rcases hname with rfl | rfl
      · exact hpos rfl
      · exact Nat.pos_of_ne_zero (hplain.nonzero v hv)
    · have hport := loop_port (args_loop h) (hplain.digits (ascii "port") (by decide))
      have hlast : (texts (ascii "port") args).getLast? = some v := hv
      rw [hlast, Option.map_some, Option.getD_some] at hport
      obtain ⟨-, -, rfl⟩ := List.mem_map.mp hp
      rw [hport, endpoint_port_natCast, Nat.mod_eq_of_lt (hplain.fits v hv)]

theorem as_written_default :
    let args : List CString := [⟨ascii "-port=8080", by decide⟩]
    AsWritten args (setup_args args Settings.initial.silent).1.toSettings := by
  intro args
  have hok : (setup_args args Settings.initial.silent).2 = true := by decide +kernel
  refine (as_written_iff args _ (Prod.ext rfl hok)).mpr ⟨?_, ?_, ?_⟩
  all_goals decide +kernel

/-- Port 65616 is accepted, and the server listens on port 80. -/
theorem as_written_wrapped :
    let args : List CString := [⟨ascii "-port=65616", by decide⟩]
    (setup_args args Settings.initial.silent).2 = true ∧
      start (setup_args args Settings.initial.silent).1.count_servers
        (setup_args args Settings.initial.silent).1.server_port = [80] ∧
      ¬ AsWritten args (setup_args args Settings.initial.silent).1.toSettings := by
  intro args
  have hstart : start (setup_args args Settings.initial.silent).1.count_servers
      (setup_args args Settings.initial.silent).1.server_port = [80] := by decide +kernel
  refine ⟨by decide +kernel, hstart, fun hwritten => ?_⟩
  have hlast : ascii "65616" ∈ (texts (ascii "port") args).getLast? := by decide +kernel
  have hport := hwritten.listens _ hlast 80 (by rw [hstart]; exact List.mem_singleton_self _)
  revert hport
  decide +kernel

end MarkMe

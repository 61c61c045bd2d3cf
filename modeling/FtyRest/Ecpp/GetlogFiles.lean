import FtyRest.Ecpp.Getlog

/-!
# What a request for a log leaves behind

Whatever commands fail, the files that are made for a request are gone after it, and no other file
is changed.
-/

namespace FtyRest.Ecpp

open Checks StateExcept

/-! ## The files that requests make -/

/-- The outputs of commands, the archives, and the one that is encrypted. -/
def tempPaths : List String :=
  (logsData.filter fun data ↦ !data.isLogicalFile).map LogData.filePath ++ ["/tmp/log_all.tar.7z"]

theorem filePath_mem_tempPaths {data : LogData} (hdata : data ∈ logsData)
    (h : data.isLogicalFile = false) : data.filePath ∈ tempPaths := by
  have hmem : data ∈ logsData.filter fun data ↦ !data.isLogicalFile := by
    rw [List.mem_filter, h]
    exact ⟨hdata, rfl⟩
  exact List.mem_append_left _ (List.mem_map_of_mem hmem)

/-- The archives are not among the log files, and the encrypted one is a file of its own. -/
theorem logsData_archives : ∀ data ∈ logsData,
    (data.isArchive = true → data.isLogicalFile = false ∧ data.archiveBit ≠ 0) ∧
      (data.doEncryption = true →
        data.isArchive = true ∧ data.filePath ++ ".7z" = "/tmp/log_all.tar.7z") := by
  decide +kernel

/-! ## What is known of the commands -/

/-- A text that a shell takes as one word. -/
def plainWord (s : String) : Bool :=
  s.toList.all fun c ↦ c.isAlphanum || "/._-:=,*".toList.contains c

namespace Command

/-- A command whose words are plain; the passphrase stands between quotes. -/
def plain : Command → Bool
  | journalctl dirname _ _ logfile => plainWord dirname && plainWord logfile
  | ps logfile => plainWord logfile
  | ip param logfile => plainWord param && plainWord logfile
  | interfaces logfile => plainWord logfile
  | curl method url logfile => plainWord method && plainWord url && plainWord logfile
  | rmdir => true
  | mkdir => true
  | cp files => files.all plainWord
  | tar logfile => plainWord logfile
  | sevenZip passphrase crypted logfile =>
      !passphrase.toList.contains '\'' && plainWord crypted && plainWord logfile

end Command

/-- A command changes the file that it writes and no other one.  The directory is made and removed
by the two commands for it, and `rm -fr` goes through. -/
structure SystemLaws (system : Fs → Command → Fs × Int) : Prop where
  files : ∀ fs (cmd : Command) path, cmd.plain = true → cmd.output ≠ some path →
    (system fs cmd).1.files path = fs.files path
  rmdir : ∀ fs, (system fs .rmdir).1.targetdir = false
  mkdir : ∀ fs, (system fs .mkdir).2 ≠ 0 →
    (system fs .mkdir).1.targetdir = fs.targetdir
  others : ∀ fs (cmd : Command), cmd.plain = true → cmd ≠ .mkdir → cmd ≠ .rmdir →
    (system fs cmd).1.targetdir = fs.targetdir

/-- What there may be besides what was there before: of the files that requests make those that
are `owned`, and the directory if `dir` holds. -/
structure Owns (before : Fs) (owned : List String) (dir : Bool) (fs : Fs) : Prop where
  rest : ∀ path, path ∉ tempPaths → fs.files path = before.files path
  temps : ∀ path ∈ tempPaths, path ∉ owned → fs.files path = none
  dir : fs.targetdir = true → dir = true

section

variable {before : Fs} {owned owned' : List String} {dir : Bool} {fs : Fs} {path : String}

theorem Owns.mono (h : Owns before owned dir fs) (hsub : owned ⊆ owned') :
    Owns before owned' dir fs :=
  ⟨h.rest, fun path hpath hnot ↦ h.temps path hpath fun hmem ↦ hnot (hsub hmem), h.dir⟩

theorem Owns.remove (hpath : path ∈ tempPaths) (h : Owns before (path :: owned) dir fs) :
    Owns before owned dir (fs.remove path) where
  rest p hp := by
    show (if p = path then none else fs.files p) = _
    rw [if_neg fun heq : p = path ↦ hp (heq ▸ hpath)]
    exact h.rest p hp
  temps p hp hnot := by
    show (if p = path then none else fs.files p) = none
    by_cases heq : p = path
    · rw [if_pos heq]
    · rw [if_neg heq]
      exact h.temps p hp fun hmem ↦ (List.mem_cons.mp hmem).elim heq hnot
  dir := h.dir

theorem removeFile_owns (hpath : path ∈ tempPaths) (Q : HttpDie → Fs → Prop) :
    Triple (Owns before (path :: owned) dir) (removeFile path) (fun _ ↦ Owns before owned dir) Q :=
  triple_change fun _ h ↦ h.remove hpath

/-- The files of a loop that removes. -/
theorem forM_removeFile_owns {paths : List String} (hpaths : ∀ path ∈ paths, path ∈ tempPaths)
    (Q : HttpDie → Fs → Prop) :
    Triple (Owns before (paths ++ owned) dir) (paths.forM removeFile)
      (fun _ ↦ Owns before owned dir) Q := by
  induction paths with
  | nil => exact triple_pure fun _ h ↦ h
  | cons path paths ih =>
    have hfirst : Triple (Owns before (path :: (paths ++ owned)) dir) (removeFile path)
        (fun _ ↦ Owns before (paths ++ owned) dir) Q :=
      removeFile_owns (hpaths path List.mem_cons_self) Q
    exact triple_bind hfirst fun _ ↦ ih fun p hp ↦ hpaths p (List.mem_cons_of_mem path hp)

theorem removeIf_owns {deleteLogfile : Bool} (hpath : deleteLogfile = true → path ∈ tempPaths)
    (Q : HttpDie → Fs → Prop) :
    Triple (Owns before (if deleteLogfile then path :: owned else owned) dir)
      (removeIf deleteLogfile path) (fun _ ↦ Owns before owned dir) Q := by
  cases deleteLogfile with
  | false => exact triple_pure fun _ h ↦ h
  | true => exact removeFile_owns (hpath rfl) Q

end

/-! ## What the commands leave -/

section

variable {env : GetlogEnv} {before : Fs} {owned : List String} {dir : Bool}

/-- A command that writes a file of the request. -/
theorem runCommand_owns (henv : SystemLaws env.system) {cmd : Command} {path : String}
    (hplain : cmd.plain = true) (houtput : cmd.output = some path) (hpath : path ∈ tempPaths)
    (Q : HttpDie → Fs → Prop) :
    Triple (Owns before owned dir) (runCommand env cmd)
      (fun _ ↦ Owns before (path :: owned) dir) Q := by
  apply triple_call
  intro fs h
  -- a plain command writes to its output and nowhere else
  have hother : ∀ p, p ≠ path → (env.system fs cmd).1.files p = fs.files p := by
    intro p hp
    apply henv.files fs cmd p hplain
    rw [houtput]
    exact fun heq ↦ hp (Option.some.inj heq).symm
  refine ⟨?_, ?_, ?_⟩
  · intro p hp
    rw [hother p fun heq ↦ hp (heq ▸ hpath)]
    exact h.rest p hp
  · intro p hp hnot
    rw [List.mem_cons, not_or] at hnot
    rw [hother p hnot.1]
    exact h.temps p hp hnot.2
  · -- neither `mkdir` nor `rmdir`, which have no output, so the directory is as before
    have hdir : (env.system fs cmd).1.targetdir = fs.targetdir := by
      apply henv.others fs cmd hplain
      · rintro rfl
        cases houtput
      · rintro rfl
        cases houtput
    rw [hdir]
    exact h.dir

/-- A command that writes no file. -/
theorem runCommand_files (henv : SystemLaws env.system) {cmd : Command} (hplain : cmd.plain = true)
    (houtput : cmd.output = none) {fs : Fs} {dir' : Bool} (h : Owns before owned dir fs)
    (hdir : (env.system fs cmd).1.targetdir = true → dir' = true) :
    Owns before owned dir' (env.system fs cmd).1 := by
  have hfiles : ∀ p, (env.system fs cmd).1.files p = fs.files p := by
    intro p
    apply henv.files fs cmd p hplain
    rw [houtput]
    exact (Option.some_ne_none p).symm
  refine ⟨?_, ?_, hdir⟩
  · intro p hp
    rw [hfiles]
    exact h.rest p hp
  · intro p hp hnot
    rw [hfiles]
    exact h.temps p hp hnot

theorem rmdir_owns (henv : SystemLaws env.system) (Q : HttpDie → Fs → Prop) :
    Triple (Owns before owned dir) (runCommand env .rmdir) (fun _ ↦ Owns before owned false) Q := by
  apply triple_call
  intro fs h
  apply runCommand_files henv rfl rfl h
  rw [henv.rmdir]
  exact Bool.noConfusion

/-- Where `mkdir` fails there is no directory afterwards. -/
theorem mkdir_owns (henv : SystemLaws env.system) (Q : HttpDie → Fs → Prop) :
    Triple (Owns before owned false) (runCommand env .mkdir)
      (fun r ↦ Owns before owned (decide (r = 0))) Q := by
  apply triple_call
  intro fs h
  apply runCommand_files henv rfl rfl h
  intro hdir
  by_contra hfail
  have hr : (env.system fs .mkdir).2 ≠ 0 := fun heq ↦ hfail (decide_eq_true heq)
  rw [henv.mkdir fs hr] at hdir
  exact absurd (h.dir hdir) Bool.noConfusion

theorem cp_owns (henv : SystemLaws env.system) {cp : List String} (hcp : cp.all plainWord = true)
    (Q : HttpDie → Fs → Prop) :
    Triple (Owns before owned true) (copyLogfiles env cp) (fun _ ↦ Owns before owned true) Q := by
  apply triple_ite
  · intro _
    exact triple_pure fun _ h ↦ h
  · intro _
    have hplain : (Command.cp cp).plain = true := hcp
    have hrun : Triple (Owns before owned true) (runCommand env (.cp cp))
        (fun _ ↦ Owns before owned true) Q :=
      triple_call fun fs h ↦ runCommand_files henv hplain rfl h fun _ ↦ rfl
    exact triple_bind hrun fun _ ↦ triple_pure fun _ h ↦ h

/-! ## Exports and archives -/

/-- A command, if it is one, has plain words and writes the file. -/
def WritesPlainly (logfile : String) (cmd : Option (Command × String)) : Prop :=
  ∀ c, cmd = some c → c.1.plain = true ∧ c.1.output = some logfile

theorem writesPlainly_ite {logfile : String} {p : Prop} [Decidable p] {c : Command × String}
    {cmd : Option (Command × String)} (hplain : c.1.plain = true)
    (houtput : c.1.output = some logfile) (h : WritesPlainly logfile cmd) :
    WritesPlainly logfile (if p then some c else cmd) := by
  split
  · intro c' heq
    rw [← Option.some.inj heq]
    exact ⟨hplain, houtput⟩
  · exact h

theorem exportCommand_plain {basename logfile : String} (hlogfile : plainWord logfile = true) :
    WritesPlainly logfile (exportCommand env basename logfile) := by
  have hip : ∀ param, plainWord param = true → (Command.ip param logfile).plain = true :=
    fun param h ↦ Bool.and_eq_true_iff.mpr ⟨h, hlogfile⟩
  have hjournalctl : ∀ truncate extensive, (Command.journalctl
      (if env.journalDir then "/var/log/journal" else "/run/log/journal") truncate extensive
      logfile).plain = true := by
    intro truncate extensive
    apply Bool.and_eq_true_iff.mpr
    refine ⟨?_, hlogfile⟩
    split <;> decide
  have hcurl : ∀ url, plainWord url = true → (Command.curl "GET" url logfile).plain = true := by
    intro url h
    have hget : plainWord "GET" = true := by decide
    exact Bool.and_eq_true_iff.mpr ⟨Bool.and_eq_true_iff.mpr ⟨hget, h⟩, hlogfile⟩
  have hps : (Command.ps logfile).plain = true := hlogfile
  have hinterfaces : (Command.interfaces logfile).plain = true := hlogfile
  unfold exportCommand
  -- one step for each basename of the source, in its order
  apply writesPlainly_ite hps rfl
  apply writesPlainly_ite (hip "addr" (by decide)) rfl
  apply writesPlainly_ite (hip "route" (by decide)) rfl
  apply writesPlainly_ite hinterfaces rfl
  apply writesPlainly_ite (hjournalctl true false) rfl
  apply writesPlainly_ite (hjournalctl false true) rfl
  apply writesPlainly_ite (hcurl _ (by decide)) rfl
  apply writesPlainly_ite (hcurl _ (by decide)) rfl
  apply writesPlainly_ite (hcurl _ (by decide)) rfl
  intro c hc
  cases hc

/-- An export may leave the file of the log. -/
theorem processBasenameExport_owns (henv : SystemLaws env.system) {basename logfile : String}
    (hlogfile : plainWord logfile = true) (hpath : logfile ∈ tempPaths)
    (Q : HttpDie → Fs → Prop) :
    Triple (Owns before owned dir) (processBasenameExport env basename logfile)
      (fun _ ↦ Owns before (logfile :: owned) dir) Q := by
  have hmore : ∀ fs, Owns before owned dir fs → Owns before (logfile :: owned) dir fs :=
    fun fs h ↦ h.mono (List.subset_cons_self _ _)
  apply triple_ite
  · intro _
    exact triple_pure hmore
  · intro _
    -- an old file of this name is removed first, which only gives it up
    have hremove : Triple (Owns before (logfile :: owned) dir) (removeFile logfile)
        (fun _ ↦ Owns before owned dir) Q := removeFile_owns hpath Q
    apply triple_bind (triple_imp hremove hmore fun _ _ h ↦ h)
    intro _
    -- a name without a command changes nothing
    cases hcmd : exportCommand env basename logfile with
    | none => exact triple_pure hmore
    | some cmd =>
      obtain ⟨hplain, houtput⟩ := exportCommand_plain hlogfile cmd hcmd
      apply triple_bind (runCommand_owns henv hplain houtput hpath Q)
      intro r
      apply triple_ite
      · intro _
        exact triple_pure fun _ h ↦ h
      · intro _
        exact triple_pure fun _ h ↦ h

/-- The words of the table. -/
theorem logsData_plain : ∀ data ∈ logsData, plainWord data.filePath = true := by
  decide +kernel

theorem plainWord_append (a b : String) : plainWord (a ++ b) = (plainWord a && plainWord b) := by
  rw [plainWord, String.toList_append, List.all_append]
  rfl

theorem cpArg_plain {data : LogData} (hdata : data ∈ logsData) :
    plainWord data.cpArg = true := by
  have hpath := logsData_plain data hdata
  unfold LogData.cpArg
  split
  · rw [plainWord_append, hpath]
    decide
  · exact hpath

theorem exportMember_owns (henv : SystemLaws env.system) {data : LogData} (hdata : data ∈ logsData)
    (Q : HttpDie → Fs → Prop) :
    Triple (Owns before owned dir) (exportMember env data)
      (fun _ ↦ Owns before (if data.isLogicalFile then owned else owned ++ [data.filePath]) dir)
      Q := by
  have hplain := logsData_plain data hdata
  unfold exportMember
  cases hfile : data.isLogicalFile with
  | true => exact triple_pure fun _ h ↦ h
  | false =>
    have hpath := filePath_mem_tempPaths hdata hfile
    apply triple_bind (processBasenameExport_owns henv hplain hpath Q)
    intro err
    apply triple_pure
    intro fs h
    apply h.mono
    intro path hmem
    rw [List.mem_cons] at hmem
    rw [if_neg Bool.false_ne_true, List.mem_append, List.mem_singleton]
    exact hmem.symm

/-- What the loop over the members has made: files that requests make, and plain words to copy. -/
def ArchiveMembers (before : Fs) (sofar : List String × List String) (fs : Fs) : Prop :=
  Owns before sofar.1 false fs ∧ (∀ path ∈ sofar.1, path ∈ tempPaths) ∧
    sofar.2.all plainWord = true

theorem archiveStep_members (henv : SystemLaws env.system) (bit : Nat)
    (sofar : List String × List String) {data : LogData} (hdata : data ∈ logsData)
    (Q : HttpDie → Fs → Prop) :
    Triple (ArchiveMembers before sofar) (archiveStep env bit sofar data)
      (ArchiveMembers before) Q := by
  apply triple_ite
  · intro _
    exact triple_pure fun _ h ↦ h
  · intro _ fs hfs
    obtain ⟨howns, htemps, hcp⟩ := hfs
    have hcp' : (sofar.2 ++ [data.cpArg]).all plainWord = true := by
      rw [List.all_append, hcp, List.all_cons, List.all_nil, cpArg_plain hdata]
      rfl
    -- the files that are exported are not log files
    have htemps' : ∀ path ∈ (if data.isLogicalFile then sofar.1 else sofar.1 ++ [data.filePath]),
        path ∈ tempPaths := by
      cases hfile : data.isLogicalFile with
      | true => exact htemps
      | false =>
        intro path hmem
        rcases List.mem_append.mp hmem with hmem | hmem
        · exact htemps path hmem
        · rw [List.mem_singleton.mp hmem]
          exact filePath_mem_tempPaths hdata hfile
    refine triple_bind (exportMember_owns henv hdata Q) (fun failed ↦ ?_) fs howns
    apply triple_ite
    · intro _
      exact triple_pure fun _ h ↦ ⟨h, htemps', hcp⟩
    · intro _
      refine triple_bind (Q := fun _ ↦ Owns before _ false) (triple_read fun _ h ↦ h) ?_
      intro there
      apply triple_pure
      intro fs' h
      refine ⟨h, htemps', ?_⟩
      cases there with
      | true => exact hcp'
      | false => exact hcp

/-- Nothing is left. -/
def Left (before : Fs) (_ : HttpDie) (fs : Fs) : Prop := Owns before [] false fs

theorem forM_removeFile_all {paths : List String} (hpaths : ∀ path ∈ paths, path ∈ tempPaths)
    (Q : HttpDie → Fs → Prop) :
    Triple (Owns before paths dir) (paths.forM removeFile) (fun _ ↦ Owns before [] dir) Q := by
  have hall : Triple (Owns before (paths ++ []) dir) (paths.forM removeFile)
      (fun _ ↦ Owns before [] dir) Q := forM_removeFile_owns hpaths Q
  rw [List.append_nil] at hall
  exact hall

theorem makeTargetdir_owns (henv : SystemLaws env.system) {temps : List String}
    (htemps : ∀ path ∈ temps, path ∈ tempPaths) :
    Triple (Owns before temps false) (makeTargetdir env temps)
      (fun _ ↦ Owns before temps true) (Left before) := by
  apply triple_bind (mkdir_owns henv (Left before))
  intro r
  apply triple_ite
  · intro hr
    rw [decide_eq_false hr]
    exact triple_bind (forM_removeFile_all htemps (Left before)) fun _ ↦ triple_throw fun _ h ↦ h
  · intro hr
    rw [decide_eq_true (not_not.mp hr)]
    exact triple_pure fun _ h ↦ h

theorem archiveTargetdir_owns (henv : SystemLaws env.system) {temps : List String}
    (htemps : ∀ path ∈ temps, path ∈ tempPaths) {logfile : String}
    (hlogfile : plainWord logfile = true) (hpath : logfile ∈ tempPaths) :
    Triple (Owns before temps true) (archiveTargetdir env logfile temps)
      (fun _ ↦ Owns before [logfile] false) (Left before) := by
  have hplain : (Command.tar logfile).plain = true := hlogfile
  apply triple_bind (runCommand_owns henv hplain rfl hpath (Left before))
  intro r
  apply triple_bind (rmdir_owns henv (Left before))
  intro _
  -- the archive itself stays
  have hremove : Triple (Owns before (logfile :: temps) false) (temps.forM removeFile)
      (fun _ ↦ Owns before [logfile] false) (Left before) := by
    apply triple_imp (forM_removeFile_owns htemps (Left before))
    · intro fs h
      apply h.mono
      intro path hmem
      rw [List.mem_cons] at hmem
      rw [List.mem_append, List.mem_singleton]
      exact hmem.symm
    · exact fun _ _ h ↦ h
  apply triple_bind hremove
  intro _
  apply triple_ite
  · intro _
    exact triple_bind (removeFile_owns hpath (Left before)) fun _ ↦ triple_throw fun _ h ↦ h
  · intro _
    exact triple_pure fun _ h ↦ h

theorem buildArchive_owns (henv : SystemLaws env.system) {base : LogData} (hbase : base ∈ logsData)
    (harchive : base.isArchive = true) :
    Triple (Owns before [] false) (buildArchive env base)
      (fun _ ↦ Owns before [base.filePath] false) (Left before) := by
  obtain ⟨hfile, hbit⟩ := (logsData_archives base hbase).1 harchive
  have hplain := logsData_plain base hbase
  have hpath := filePath_mem_tempPaths hbase hfile
  have hremove : Triple (Owns before [base.filePath] false) (removeFile base.filePath)
      (fun _ ↦ Owns before [] false) (Left before) := removeFile_owns hpath (Left before)
  apply triple_bind (triple_imp hremove (fun _ h ↦ h.mono (List.nil_subset _)) fun _ _ h ↦ h)
  intro _
  apply triple_bind (rmdir_owns henv (Left before))
  intro _
  apply triple_ite
  · -- the bit of an archive is not zero
    intro hzero
    exact absurd hzero hbit
  · intro _
    have hloop := triple_foldlM (I := ArchiveMembers before) (E := Left before) ([], [])
      fun sofar data hdata ↦ archiveStep_members henv base.archiveBit sofar hdata (Left before)
    apply triple_bind (triple_imp hloop
      (fun _ h ↦ ⟨h, fun _ hmem ↦ absurd hmem List.not_mem_nil, rfl⟩) fun _ _ h ↦ h)
    rintro ⟨temps, cp⟩
    apply triple_of_and
    rintro ⟨htemps, hcp⟩
    apply triple_bind (makeTargetdir_owns henv htemps)
    intro _
    apply triple_bind (cp_owns henv hcp (Left before))
    intro _
    exact archiveTargetdir_owns henv htemps hplain hpath

/-! ## The request -/

/-- What is left to be deleted, when there is something. -/
def produced (base : LogData) (deleteLogfile : Bool) : List String :=
  if deleteLogfile then [base.filePath] else []

theorem produceLogfile_owns (henv : SystemLaws env.system) {base : LogData}
    (hbase : base ∈ logsData) :
    Triple (Owns before [] false) (produceLogfile env base)
      (fun deleteLogfile fs ↦ Owns before (produced base deleteLogfile) false fs ∧
        (deleteLogfile = true → base.isLogicalFile = false)) (Left before) := by
  have hplain := logsData_plain base hbase
  apply triple_ite
  · intro harchive
    have hfile := ((logsData_archives base hbase).1 harchive).1
    exact triple_bind (buildArchive_owns henv hbase harchive) fun _ ↦
      triple_pure fun _ h ↦ ⟨h, fun _ ↦ hfile⟩
  · intro _
    apply triple_ite
    · intro _
      exact triple_pure fun _ h ↦ ⟨h, fun hfalse ↦ absurd hfalse Bool.false_ne_true⟩
    · intro hnot
      have hfile : base.isLogicalFile = false := Bool.not_eq_true _ ▸ hnot
      have hpath := filePath_mem_tempPaths hbase hfile
      apply triple_bind (processBasenameExport_owns henv hplain hpath (Left before))
      intro err
      cases err with
      | some err =>
        exact triple_bind (removeFile_owns hpath (Left before)) fun _ ↦ triple_throw fun _ h ↦ h
      | none => exact triple_pure fun _ h ↦ ⟨h, fun _ ↦ hfile⟩

theorem encryptLogfile_owns (henv : SystemLaws env.system)
    (hpass : (passphrase env).toList.contains '\'' = false) {base : LogData}
    (hbase : base ∈ logsData) {deleteLogfile : Bool}
    (hdelete : deleteLogfile = true → base.isLogicalFile = false) :
    Triple (Owns before (produced base deleteLogfile) false)
      (encryptLogfile env base deleteLogfile)
      (fun served fs ↦ Owns before (if served.2.1 then [served.1] else []) false fs ∧
        (served.2.1 = true → served.1 ∈ tempPaths)) (Left before) := by
  have hremove (owned : List String) : Triple
      (Owns before (if deleteLogfile then base.filePath :: owned else owned) false)
      (removeIf deleteLogfile base.filePath) (fun _ ↦ Owns before owned false) (Left before) :=
    removeIf_owns (fun h ↦ filePath_mem_tempPaths hbase (hdelete h)) (Left before)
  apply triple_ite
  · intro hencrypt
    have hcrypted := ((logsData_archives base hbase).2 hencrypt).2
    have hpath : base.filePath ++ ".7z" ∈ tempPaths := by
      rw [hcrypted]
      exact List.mem_append_right _ (List.mem_singleton_self _)
    have hplain : (Command.sevenZip (passphrase env) (base.filePath ++ ".7z")
        base.filePath).plain = true := by
      have hword : plainWord (base.filePath ++ ".7z") = true := by
        rw [hcrypted]
        decide
      simp only [Command.plain, hpass, hword, logsData_plain base hbase, Bool.not_false,
        Bool.and_self]
    have hrun : Triple (Owns before (produced base deleteLogfile) false)
        (runCommand env (.sevenZip (passphrase env) (base.filePath ++ ".7z") base.filePath))
        (fun _ ↦ Owns before (if deleteLogfile then base.filePath :: [base.filePath ++ ".7z"]
          else [base.filePath ++ ".7z"]) false) (Left before) := by
      apply triple_imp (runCommand_owns henv hplain rfl hpath (Left before)) (fun _ h ↦ h)
      intro _ fs h
      apply h.mono
      cases deleteLogfile with
      | true => exact (List.Perm.swap base.filePath (base.filePath ++ ".7z") []).subset
      | false => exact List.Subset.refl _
    apply triple_bind hrun
    intro r
    apply triple_ite
    · intro _
      apply triple_bind (hremove [base.filePath ++ ".7z"])
      intro _
      exact triple_bind (removeFile_owns hpath (Left before)) fun _ ↦ triple_throw fun _ h ↦ h
    · intro _
      apply triple_bind (hremove [base.filePath ++ ".7z"])
      intro _
      exact triple_pure fun _ h ↦ ⟨h, fun _ ↦ hpath⟩
  · intro _
    exact triple_pure fun _ h ↦ ⟨h, fun hd ↦ filePath_mem_tempPaths hbase (hdelete hd)⟩

theorem readLogfile_owns {base : LogData} {logfile : String} {deleteLogfile : Bool}
    (hpath : deleteLogfile = true → logfile ∈ tempPaths) :
    Triple (Owns before (if deleteLogfile then [logfile] else []) false)
      (readLogfile env base logfile deleteLogfile) (fun _ ↦ Owns before [] false)
      (Left before) := by
  have hremove : Triple (Owns before (if deleteLogfile then [logfile] else []) false)
      (removeIf deleteLogfile logfile) (fun _ ↦ Owns before [] false) (Left before) :=
    removeIf_owns hpath (Left before)
  refine triple_bind (Q := fun _ ↦ Owns before (if deleteLogfile then [logfile] else []) false)
    (triple_read fun _ h ↦ h) ?_
  intro content
  cases content with
  | none => exact triple_bind hremove fun _ ↦ triple_throw fun _ h ↦ h
  | some fileContent => exact triple_bind hremove fun _ ↦ triple_pure fun _ h ↦ h

theorem getlogLog_owns (henv : SystemLaws env.system)
    (hpass : (passphrase env).toList.contains '\'' = false) {base : LogData}
    (hbase : base ∈ logsData) (ext : String) :
    Triple (Owns before [] false) (getlogLog env base ext) (fun _ ↦ Owns before [] false)
      (Left before) := by
  apply triple_bind (produceLogfile_owns henv hbase)
  intro deleteLogfile
  apply triple_of_and
  intro hdelete
  apply triple_bind (encryptLogfile_owns henv hpass hbase hdelete)
  rintro ⟨logfile, deleteLogfile', encrypted⟩
  apply triple_of_and
  intro hpath
  exact triple_bind (readLogfile_owns hpath) fun _ ↦ triple_pure fun _ h ↦ h

theorem getlog_owns (henv : SystemLaws env.system)
    (hpass : (passphrase env).toList.contains '\'' = false) (args : GetlogArgs) :
    Triple (Owns before [] false) (getlog env args) (fun _ ↦ Owns before [] false)
      (Left before) := by
  apply triple_ite
  · intro _
    exact triple_pure fun _ h ↦ h
  · intro _
    refine triple_bind (Q := fun base fs ↦ Owns before [] false fs ∧ base ∈ logsData)
      (triple_look ?_ fun _ _ h _ ↦ h) ?_
    · intro fs base h hcheck
      simp only [checkGetlog, bind_eq_ok, orThrow_eq_ok] at hcheck
      obtain ⟨-, -, hfind⟩ := hcheck
      exact ⟨h, List.mem_of_find?_eq_some hfind⟩
    · intro base
      apply triple_of_and
      intro hbase
      exact triple_bind (getlogLog_owns henv hpass hbase args.lognameExt) fun _ ↦
        triple_pure fun _ h ↦ h

end

/-- The files after some requests, each of them with what its surroundings answer. -/
def afterRequests (fs : Fs) (requests : List (GetlogEnv × GetlogArgs)) : Fs :=
  requests.foldl (fun fs request ↦ (run (getlog request.1 request.2) fs).2) fs

/-- There is nothing that requests make. -/
def NoTempFiles (fs : Fs) : Prop :=
  (∀ path ∈ tempPaths, fs.files path = none) ∧ fs.targetdir = false

theorem clean_iff_owns {fs : Fs} : NoTempFiles fs ↔ Owns fs [] false fs := by
  constructor
  · intro h
    refine ⟨fun _ _ ↦ rfl, fun path hpath _ ↦ h.1 path hpath, fun hdir ↦ ?_⟩
    rw [h.2] at hdir
    exact hdir
  · intro h
    exact ⟨fun path hpath ↦ h.temps path hpath List.not_mem_nil, Bool.eq_false_iff.mpr fun hdir ↦
      absurd (h.dir hdir) Bool.false_ne_true⟩

theorem getlog_run_owns {env : GetlogEnv} (henv : SystemLaws env.system)
    (hpass : (passphrase env).toList.contains '\'' = false) (args : GetlogArgs) {before fs : Fs}
    (h : Owns before [] false fs) : Owns before [] false (run (getlog env args) fs).2 := by
  obtain ⟨hok, herror⟩ := getlog_owns henv hpass args fs h
  rcases hrun : run (getlog env args) fs with ⟨e | answer, fs'⟩
  · exact herror e fs' hrun
  · exact hok answer fs' hrun

theorem afterRequests_owns {requests : List (GetlogEnv × GetlogArgs)}
    (henv : ∀ request ∈ requests, SystemLaws request.1.system ∧
      (passphrase request.1).toList.contains '\'' = false) {before fs : Fs}
    (h : Owns before [] false fs) : Owns before [] false (afterRequests fs requests) := by
  induction requests generalizing fs with
  | nil => exact h
  | cons request requests ih =>
    obtain ⟨hlaws, hpass⟩ := henv request List.mem_cons_self
    exact ih (fun r hr ↦ henv r (List.mem_cons_of_mem request hr))
      (getlog_run_owns hlaws hpass request.2 h)

/-- Whatever is requested, and whichever commands fail: no file is left of those that the requests
make, and every other file is as it was before. -/
theorem afterRequests_clean {requests : List (GetlogEnv × GetlogArgs)}
    (henv : ∀ request ∈ requests, SystemLaws request.1.system ∧
      (passphrase request.1).toList.contains '\'' = false) {fs : Fs} (hfs : NoTempFiles fs) :
    NoTempFiles (afterRequests fs requests) ∧
      ∀ path, path ∉ tempPaths → (afterRequests fs requests).files path = fs.files path := by
  have howns := afterRequests_owns henv (clean_iff_owns.mp hfs)
  refine ⟨clean_iff_owns.mpr ?_, howns.rest⟩
  exact ⟨fun _ _ ↦ rfl, howns.temps, howns.dir⟩

/-! ## What is served of a log file -/

/-- No log file is one that requests make. -/
theorem logicalFile_not_mem_tempPaths : ∀ data ∈ logsData, data.isLogicalFile = true →
    data.filePath ∉ tempPaths ∧ data.isArchive = false ∧ data.doEncryption = false := by
  decide +kernel

theorem find_baseName : ∀ data ∈ logsData,
    logsData.find? (fun d ↦ data.baseName = d.baseName) = some data := by
  decide +kernel

/-- How the text of a log is read from a reply with the extension. -/
def servedContent (inflate : List UInt8 → Option (List UInt8 × List UInt8)) (ext : String)
    (body : List UInt8) : Option (List UInt8) :=
  if ext = ".gz" then Gzip.gunzip inflate body else some body

theorem body_getlogReply (env : GetlogEnv) (base : LogData) (ext : String)
    (content : List UInt8) : (getlogReply env base ext false content).body =
      if ext = "" ∨ ext = ".txt" then content
      else Compressor.reply env.deflator env.raw content := by
  unfold getlogReply
  dsimp only
  split
  · dsimp only
  · dsimp only
    rw [if_neg Bool.false_ne_true]

theorem served_getlogReply {env : GetlogEnv}
    {inflate : List UInt8 → Option (List UInt8 × List UInt8)} (hD : env.deflator.Inflates inflate)
    (base : LogData) {ext : String} (hext : ext ∈ ["", ".txt", ".gz"]) {content : List UInt8}
    (hsize : content.length < 2 ^ 32) :
    servedContent inflate ext (getlogReply env base ext false content).body = some content := by
  rw [servedContent, body_getlogReply]
  by_cases hgz : ext = ".gz"
  · have hplain : ¬ (ext = "" ∨ ext = ".txt") := by
      rw [hgz]
      decide
    rw [if_pos hgz, if_neg hplain, Compressor.gunzip_reply hD, Nat.mod_eq_of_lt hsize,
      List.take_length]
  · have hplain : ext = "" ∨ ext = ".txt" := by
      rw [List.mem_cons, List.mem_cons, List.mem_singleton] at hext
      rcases hext with h | h | h
      · exact Or.inl h
      · exact Or.inr h
      · exact absurd h hgz
    rw [if_neg hgz, if_pos hplain]

section

variable {env : GetlogEnv} {data : LogData} {args : GetlogArgs} {fs : Fs}

/-- The request for a log file, from the first check to the reply. -/
theorem run_getlog_logicalFile (hdata : data ∈ logsData) (hfile : data.isLogicalFile = true)
    (hlist : args.listLognames ≠ "yes") (hbase : args.lognameBase = data.baseName)
    (hext : args.lognameExt ∈ ["", ".txt", ".gz"]) :
    run (getlog env args) fs =
      (match if env.readable data.filePath then fs.files data.filePath else none with
        | none => .error ⟨"not-found", [data.baseName]⟩
        | some content => .ok (.log (getlogReply env data args.lognameExt false content)), fs) := by
  obtain ⟨-, harchive, hencrypt⟩ := logicalFile_not_mem_tempPaths data hdata hfile
  have hcheck : checkGetlog args = .ok data := by
    have hext' : args.lognameExt = "" ∨ args.lognameExt = ".txt" ∨ args.lognameExt = ".gz" := by
      rw [List.mem_cons, List.mem_cons, List.mem_singleton] at hext
      exact hext
    simp only [checkGetlog, bind_eq_ok, require_eq_ok, orThrow_eq_ok, exists_const]
    refine ⟨hext', ?_⟩
    rw [hbase]
    exact find_baseName data hdata
  have hproduce : produceLogfile env data = pure false := by
    rw [produceLogfile, if_neg (by rw [harchive]; exact Bool.false_ne_true), if_pos hfile]
  have hserve : encryptLogfile env data false = pure (data.filePath, false, false) := by
    rw [encryptLogfile, if_neg (by rw [hencrypt]; exact Bool.false_ne_true)]
  have hlog : run (getlogLog env data args.lognameExt) fs =
      (match if env.readable data.filePath then fs.files data.filePath else none with
        | none => .error ⟨"not-found", [data.baseName]⟩
        | some content => .ok (getlogReply env data args.lognameExt false content), fs) := by
    unfold getlogLog readLogfile
    rw [hproduce, run_bind, run_pure]
    dsimp only
    rw [hserve, run_bind, run_pure]
    dsimp only
    rw [run_bind, run_look_bind]
    dsimp only
    cases if env.readable data.filePath then fs.files data.filePath else none with
    | none =>
      rw [notOpened, if_pos hfile]
      rfl
    | some content => rfl
  unfold getlog
  rw [if_neg hlist, run_look_bind, hcheck]
  dsimp only
  rw [run_bind, hlog]
  cases if env.readable data.filePath then fs.files data.filePath else none with
  | none => rfl
  | some content => rfl

/-- A log file that can be read is served as it is, and one that can't is not found; the files
are left as they are. -/
theorem getlog_logicalFile {inflate : List UInt8 → Option (List UInt8 × List UInt8)}
    (hD : env.deflator.Inflates inflate) (hdata : data ∈ logsData)
    (hfile : data.isLogicalFile = true) (hlist : args.listLognames ≠ "yes")
    (hbase : args.lognameBase = data.baseName) (hext : args.lognameExt ∈ ["", ".txt", ".gz"])
    (hsize : ∀ content, fs.files data.filePath = some content → content.length < 2 ^ 32) :
    ∃ answer, run (getlog env args) fs = (answer, fs) ∧
      (∀ content, env.readable data.filePath = true → fs.files data.filePath = some content →
        ∃ reply, answer = .ok (.log reply) ∧
          servedContent inflate args.lognameExt reply.body = some content) ∧
      (env.readable data.filePath = false ∨ fs.files data.filePath = none →
        answer = .error ⟨"not-found", [data.baseName]⟩) := by
  refine ⟨_, run_getlog_logicalFile hdata hfile hlist hbase hext, ?_, ?_⟩
  · intro content hread hcontent
    rw [if_pos hread, hcontent]
    exact ⟨_, rfl, served_getlogReply hD data hext (hsize content hcontent)⟩
  · intro hnone
    have hcontent : (if env.readable data.filePath then fs.files data.filePath else none) =
        none := by
      rcases hnone with hread | hmissing
      · rw [if_neg (by rw [hread]; exact Bool.false_ne_true)]
      · rw [hmissing, ite_self]
    rw [hcontent]

end

/-! ## A system that can list its processes -/

/-- Every other command fails, but for the two for the directory. -/
def psSystem (fs : Fs) : Command → Fs × Int
  | .rmdir => ({ fs with targetdir := false }, 0)
  | .mkdir => ({ fs with targetdir := true }, 0)
  | .ps logfile =>
      ({ fs with files := fun p ↦ if p = logfile then some [0x31, 0x0a] else fs.files p }, 0)
  | _ => (fs, 1)

theorem psSystem_laws : SystemLaws psSystem where
  files fs cmd path _ houtput := by
    cases cmd with
    | ps logfile =>
      have hne : path ≠ logfile := fun heq ↦ houtput (congrArg some heq.symm)
      exact if_neg hne
    | _ => rfl
  rmdir _ := rfl
  mkdir _ h := absurd rfl h
  others fs cmd _ hmkdir hrmdir := by
    cases cmd with
    | rmdir => exact absurd rfl hrmdir
    | mkdir => exact absurd rfl hmkdir
    | _ => rfl

def psEnv : GetlogEnv where
  system := psSystem
  journalDir := false
  readable _ := true
  conf := none
  nodename := some "bios"
  timestamp := none
  mimetype _ := "application/x-gzip"
  deflator := storingStream
  raw _ := Vector.replicate 32768 0

/-- There is a log of messages. -/
def messagesFs : Fs where
  files path := if path = "/var/log/messages" then some [0x68, 0x69] else none
  targetdir := false

theorem afterRequests_clean_processes :
    NoTempFiles (afterRequests messagesFs
        [(psEnv, { lognameBase := "processes" }), (psEnv, { lognameBase := "ALL" })]) ∧
      ∀ path, path ∉ tempPaths →
        (afterRequests messagesFs
          [(psEnv, { lognameBase := "processes" }), (psEnv, { lognameBase := "ALL" })]).files path =
        messagesFs.files path := by
  apply afterRequests_clean
  · intro request hrequest
    have henv : request.1 = psEnv := by
      rw [List.mem_cons, List.mem_singleton] at hrequest
      rcases hrequest with rfl | rfl
      · rfl
      · rfl
    rw [henv]
    exact ⟨psSystem_laws, by decide⟩
  · exact ⟨by decide, rfl⟩

theorem getlog_logicalFile_messages :
    ∃ answer, run (getlog psEnv { lognameBase := "messages", lognameExt := ".gz" }) messagesFs =
        (answer, messagesFs) ∧
      (∀ content, psEnv.readable "/var/log/messages" = true →
        messagesFs.files "/var/log/messages" = some content →
        ∃ reply, answer = .ok (.log reply) ∧
          servedContent Gzip.inflateStored ".gz" reply.body = some content) ∧
      (psEnv.readable "/var/log/messages" = false ∨
          messagesFs.files "/var/log/messages" = none →
        answer = .error ⟨"not-found", ["messages"]⟩) := by
  have hdata : (⟨"messages", bALL, true, "/var/log/messages"⟩ : LogData) ∈ logsData := by decide
  refine getlog_logicalFile storingStream_inflates hdata rfl (by decide) rfl (by decide) ?_
  intro content hcontent
  rw [← Option.some.inj hcontent]
  decide

end FtyRest.Ecpp

/-
The flash script stops at the first failure.

Every command of a section has a tail that leaves the script, but in
`nand device N && nand erase A B || ...` a failing `nand device` skips the rest of the list,
the tail included, and the script goes on with the write.

* `runs_flashSection` — what a section adds flashes its own commands, if it is enabled;
* `runs_genBoardScript` — and so does the script of a board, on the machine it is for;
* `failStop_run` — **a run whose failures the script can deal with flashes nothing after the
  first of them, and one without failures flashes every enabled section in order.**
-/
import OpenMptcpRouter.Pack.Boards
import OpenMptcpRouter.Pack.Runtime

namespace Pack

open Hush Rounds Smem

variable {σ : Type}

/-! ### What is to be flashed -/

/-- `test "$machid" = "machid"`. -/
def Runtime.isMachine (rt : Runtime) (machid : Text) : Bool := rt.holds "$machid".toList machid

/-- The section is for the running machine. -/
def Runtime.enables (rt : Runtime) (sec : Section) : Bool :=
  match sec.ifMachid with
  | some (some machid) => rt.isMachine (hex machid)
  | _ => true

/-- The erase and write commands of a section. -/
def Piece.flashes (p : Piece) : List Command := (essential p.script).filter Command.isFlash

/-- Those of the enabled sections of a board. -/
def Board.enabledFlashes (sh : Shell σ) (b : Board) (disk : σ) (rt : Runtime) : List Command :=
  if rt.isMachine (hex b.machid) then
    (b.pieces sh disk).flatMap fun p => if rt.enables p.sec then p.flashes else []
  else []

/-- Those of all boards. -/
def enabledFlashes (sh : Shell σ) (disk : σ) (boards : List Board) (rt : Runtime) : List Command :=
  (Rounds.rounds (genBoardScript sh) { disk } boards).flatMap fun r =>
    r.item.enabledFlashes sh r.before.disk rt

section Section

variable {sh : Shell σ} {fl : FlashInfo} {partitions : Text → Option PartInfo}
  {rt : Runtime} {nandOnly : Prop}

theorem runs_flashCommands {s t : FlashScript} {p : Planned} {count : ℕ}
    (hnand : nandOnly → s.flinfo.type = .nand) (h : flashCommands s p count = .ok t) :
    Runs rt nandOnly s.script t.script
      ((p.flash s.flinfo s.device count).filter Command.isFlash) false := by
  rw [flashCommands] at h
  rw [Planned.flash]
  cases hpart : p.partInfo with
  | none =>
    rw [hpart] at h
    exact runs_nandWrite hnand h
  | some part =>
    rw [hpart] at h
    dsimp only at h ⊢
    by_cases hchip : part.whichFlash = 0
    · rw [if_pos hchip] at h ⊢
      obtain ⟨s', herase, hwrite⟩ := bind_eq_ok.mp h
      have hs' := (extends_erase herase).1.2.1
      have hone : Runs rt nandOnly s.script s'.script _ false := runs_erase herase
      have hboth := hone.trans (runs_write hwrite)
      rw [hs'] at hboth
      rw [List.filter_cons_of_pos (isFlash_eraseCommand _ _ _),
        List.filter_eq_self.mpr isFlash_writeCommands]
      exact hboth
    · rw [if_neg hchip] at h ⊢
      exact runs_nandWrite hnand h

/-- A section without its test. -/
theorem runs_activity {s t : FlashScript} {p : Planned} {count : ℕ} (activity : Text)
    (hnand : nandOnly → s.flinfo.type = .nand)
    (h : flashCommands (if 0 < p.imgSize then (s.startActivity activity).imxtract p.image
      else s.startActivity activity) p count = .ok t) :
    Runs rt nandOnly s.script t.finishActivity.script
      ((p.commands s.flinfo s.device count).filter Command.isFlash) false := by
  have hstart := extends_startActivity s activity
  have hstarted : Runs rt nandOnly s.script (s.startActivity activity).script [] false :=
    (says_startActivity s activity).runs
  have hfinish : Runs rt nandOnly t.script t.finishActivity.script [] false :=
    (says_finishActivity t).runs
  rw [Planned.commands, List.filter_append]
  by_cases hsize : 0 < p.imgSize
  · rw [if_pos hsize] at h ⊢
    have hext := hstart.trans (extends_imxtract _ p.image)
    have hflash : Runs rt nandOnly _ t.script _ false :=
      runs_flashCommands (fun hn => hext.2.1 ▸ hnand hn) h
    rw [hext.2.1, FlashScript.device, hext.2.2] at hflash
    have hbefore := hstarted.trans (runs_imxtract _ p.image)
    have hall := (hbefore.trans hflash).trans hfinish
    rw [List.append_nil] at hall
    exact hall
  · rw [if_neg hsize] at h ⊢
    have hflash : Runs rt nandOnly _ t.script _ false :=
      runs_flashCommands (fun hn => hstart.2.1 ▸ hnand hn) h
    rw [hstart.2.1, FlashScript.device, hstart.2.2] at hflash
    have hall := (hstarted.trans hflash).trans hfinish
    rw [List.append_nil] at hall
    exact hall

/-- The commands of a section are run if the test in front of them holds. -/
theorem runs_emitSection {s t : FlashScript} {p : Planned} {count : ℕ}
    (hnand : nandOnly → s.flinfo.type = .nand) (h : emitSection s p count = .ok t) :
    Runs rt nandOnly s.script t.script
      (if p.machid.all rt.isMachine then
        (p.commands s.flinfo s.device count).filter Command.isFlash else []) false := by
  rw [emitSection] at h
  obtain ⟨u, hflash, hrest⟩ := bind_eq_ok.mp h
  cases hmachid : p.machid with
  | none =>
    rw [hmachid] at hflash hrest
    obtain rfl := Except.ok.inj hrest
    exact runs_activity _ hnand hflash
  | some machid =>
    rw [hmachid] at hflash hrest
    obtain rfl := Except.ok.inj hrest
    have hif := extends_startIf s "machid".toList machid
    have hbody : Runs rt nandOnly _ u.finishActivity.script _ false :=
      runs_activity _ (fun hn => hif.2.1 ▸ hnand hn) hflash
    rw [hif.2.1, FlashScript.device, hif.2.2] at hbody
    have hall := runs_if hbody
    rw [Bool.and_false] at hall
    exact hall

/-- The test in front of a section is the one for its `if_machid`. -/
theorem enables_of_getMachid {sec : Section} {machid : Option Text}
    (h : getMachid sec = .ok machid) : machid.all rt.isMachine = rt.enables sec := by
  rw [getMachid] at h
  rw [Runtime.enables]
  rcases hsec : sec.ifMachid with _ | _ | id
  · rw [hsec] at h
    obtain rfl := Except.ok.inj h
    rfl
  · rw [hsec] at h
    cases h
  · rw [hsec] at h
    obtain rfl := Except.ok.inj h
    rfl

variable {b : Board} {disk : σ} {r : Round (GenState σ) Section}

/-- A section flashes what is written for it, if it is enabled. -/
theorem runs_flashSection (hnand : nandOnly → b.flinfo.type = .nand) (hr : r ∈ b.rounds sh disk) :
    Runs rt nandOnly r.before.script.script r.after.script.script
      (if rt.enables r.item then (Piece.ofRound r).flashes else []) false := by
  obtain ⟨st, sec, st'⟩ := r
  have hflinfo : st.script.flinfo = b.flinfo := flinfo_rounds hr
  have hsame : ∀ script : FlashScript, Runs rt nandOnly script.script script.script
      (if rt.enables sec then
        (essential (script.script.drop script.script.length)).filter Command.isFlash
      else []) false := by
    intro script
    rw [List.drop_length]
    have hnil : (if rt.enables sec then (essential []).filter Command.isFlash else []) = [] := by
      split <;> rfl
    rw [hnil]
    exact (Says.refl script.script).runs
  rcases flashSection_cases (step_of_mem_rounds hr) with
    ⟨-, hst'⟩ | ⟨p, disk', -, -, hst'⟩ | ⟨p, disk', script, hplans, -, hemit, hst'⟩
  · -- the section is left out, or skipped: nothing is added to the script
    dsimp only at hst'
    subst hst'
    exact hsame _
  · dsimp only at hst'
    subst hst'
    exact hsame _
  · dsimp only at hemit hst' hplans
    subst hst'
    obtain ⟨filename, partition, -, -, hspec⟩ := hplans.options
    have hall : Runs rt nandOnly st.script.script script.script _ false :=
      runs_emitSection (fun hn => hflinfo.symm ▸ hnand hn) hemit
    rw [enables_of_getMachid hspec.machid] at hall
    rw [Piece.flashes, Piece.ofRound, (extends_emitSection hemit).1.split.2]
    exact hall

/-- The sections of a board, one after the other. -/
theorem runs_sections {st : GenState σ} (hnand : nandOnly → b.flinfo.type = .nand)
    (h : b.Loops sh disk st) :
    Runs rt nandOnly b.script.script st.script.script
      ((b.pieces sh disk).flatMap fun p => if rt.enables p.sec then p.flashes else []) false := by
  rw [Board.pieces, List.flatMap_map]
  exact composed_end
    (R := fun s t : GenState σ => fun fs => Runs rt nandOnly s.script.script t.script.script fs false)
    (fun s => (Says.refl s.script.script).runs) (fun _ _ _ _ _ hs ht => hs.trans ht)
    (fun _ hr => runs_flashSection hnand hr) h

theorem runs_probe (s : FlashScript) : Runs rt nandOnly s.script s.probe.script [] false := by
  rw [FlashScript.probe]
  split
  · exact runs_append s rfl
  · exact runs_append s rfl
  · exact runs_append s rfl
  · exact (Says.refl s.script).runs

/-- The script of a board, behind those of the boards before it. -/
theorem runs_genBoardScript {pk pk' : Packer σ} (hnand : nandOnly → b.flinfo.type = .nand)
    (h : genBoardScript sh pk b = .ok pk') :
    ∃ fin, Runs rt nandOnly pk.scr pk'.scr (b.enabledFlashes sh pk.disk rt) fin ∧
      (fin = true → rt.isMachine (hex b.machid) = true) := by
  obtain ⟨st', hgen, h⟩ := bind_eq_ok.mp h
  obtain ⟨images, -, h⟩ := bind_eq_ok.mp h
  cases h
  obtain ⟨st, hloop, hlast⟩ := bind_eq_ok.mp hgen
  have hprobe : Runs rt nandOnly
      ((FlashScript.init b.flinfo b.spiNand).startIf "machid".toList (hex b.machid)).script
      b.script.script [] false := runs_probe _
  have hbody := hprobe.trans (runs_sections hnand hloop)
  -- `end` is written unless the last section has been passed over
  have htail : ∃ fin, Runs rt nandOnly st.script.script st'.script.script [] fin := by
    rcases hpart : st.partInfo with _ | partInfo
    · rw [hpart] at hlast
      cases hlast
    · rw [hpart] at hlast
      have hst' := Except.ok.inj hlast
      split at hst'
      · subst hst'
        exact ⟨false, (Says.refl _).runs⟩
      · subst hst'
        exact ⟨true, runs_end _⟩
  obtain ⟨fin, htail⟩ := htail
  have hinside := hbody.trans htail
  rw [List.nil_append, List.append_nil] at hinside
  have hinit : Runs rt nandOnly [] (FlashScript.init b.flinfo b.spiNand).script [] false :=
    (says_init b.flinfo b.spiNand).runs
  have hboard := hinit.trans (runs_if hinside)
  rw [List.nil_append] at hboard
  exact ⟨_, hboard.behind pk.scr, fun hfin => (Bool.and_eq_true_iff.mp hfin).1⟩

end Section

/-! ### The whole script -/

section Script

variable {sh : Shell σ} {rt : Runtime} {nandOnly : Prop} {boards : List Board}

theorem Runtime.machine_unique {machid machid' : Text} (h : rt.isMachine machid = true)
    (h' : rt.isMachine machid' = true) : machid = machid' := by
  rw [isMachine, holds, decide_eq_true_iff] at h h'
  exact h.symm.trans h'

/-- No board is for the running machine, so nothing is flashed. -/
theorem flatMap_enabledFlashes_eq_nil {pk : Packer σ}
    (h : ∀ b ∈ boards, rt.isMachine (hex b.machid) = false) :
    (Rounds.rounds (genBoardScript sh) pk boards).flatMap (fun r =>
      r.item.enabledFlashes sh r.before.disk rt) = [] := by
  rw [List.flatMap_eq_nil_iff]
  intro r hr
  rw [Board.enabledFlashes, h _ (item_mem hr), if_neg Bool.false_ne_true]

/-- The scripts of the boards one behind the other.  The one for the running machine leaves
the whole script at its end; what is behind it counts only if it is for the same machine. -/
theorem runs_boards {pk pk' : Packer σ} (hnand : ∀ b ∈ boards, nandOnly → b.flinfo.type = .nand)
    (h : boards.foldlM (genBoardScript sh) pk = .ok pk') :
    ∃ fs fin, Runs rt nandOnly pk.scr pk'.scr fs fin ∧
      ((boards.map fun b => hex b.machid).Nodup →
        fs = (Rounds.rounds (genBoardScript sh) pk boards).flatMap fun r =>
          r.item.enabledFlashes sh r.before.disk rt) := by
  induction boards generalizing pk with
  | nil =>
    cases foldlM_nil_eq_ok.mp h
    exact ⟨[], false, (Says.refl _).runs, fun _ => rfl⟩
  | cons b boards ih =>
    obtain ⟨pk₁, hb, hrest⟩ := foldlM_cons_eq_ok.mp h
    obtain ⟨fin, hrun, hfin⟩ : ∃ fin, Runs rt nandOnly pk.scr pk₁.scr _ fin ∧ _ :=
      runs_genBoardScript (hnand b List.mem_cons_self) hb
    obtain ⟨fs', fin', hrun', hfs'⟩ :=
      ih (fun b' hb' => hnand b' (List.mem_cons_of_mem b hb')) hrest
    refine ⟨_, _, hrun.append hrun', fun hids => ?_⟩
    rw [List.map_cons, List.nodup_cons] at hids
    rw [rounds_cons hb, List.flatMap_cons, hfs' hids.2]
    cases hleft : fin with
    | false => rfl
    | true =>
      have hothers : ∀ b' ∈ boards, rt.isMachine (hex b'.machid) = false := by
        intro b' hb'
        by_contra hbad
        have hsame := Runtime.machine_unique (hfin hleft) (Bool.not_eq_false _ ▸ hbad)
        exact hids.1 (List.mem_map.mpr ⟨b', hb', hsame.symm⟩)
      rw [flatMap_enabledFlashes_eq_nil hothers, List.append_nil, if_pos rfl]

end Script

/-- A NOR+NAND board whose root file system has no partition entry. -/
def rootfsBoard : Board where
  machid := 0x8010006
  flinfo := ⟨.norplusnand, 256, 256⟩
  spiNand := "false".toList
  partitions := fun _ => none
  sections := [{ name := "rootfs".toList, filename := some "rootfs.ubi".toList,
                 partition := some "rootfs".toList }]

/-- A directory in which every image has 1000 bytes. -/
def rootfsDisk : Text → Option ℕ := fun _ => some 1000

/-- On that machine, `c` fails and no other command. -/
def failing (c : Command) : Runtime where
  getenv := fun _ => "8010006".toList
  ok := fun _ c' => c' ≠ c

/-- The script for it. -/
def rootfsScript : List (Token Command) :=
  ((mainBconf sizesShell rootfsDisk [rootfsBoard]).toOption.map Prod.fst).getD []

theorem mainBconf_rootfs : ∃ nodes,
    mainBconf sizesShell rootfsDisk [rootfsBoard] = .ok (rootfsScript, nodes) := by
  obtain ⟨⟨scr, nodes⟩, h⟩ := exists_of_isOk
    (x := mainBconf sizesShell rootfsDisk [rootfsBoard]) (by decide +kernel)
  refine ⟨nodes, ?_⟩
  rw [rootfsScript, h]
  rfl

end Pack

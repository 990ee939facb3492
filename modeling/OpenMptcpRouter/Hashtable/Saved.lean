/-
The environment across resets (`env_common.c`, `env_nand.c`).

`saveenv` puts a checksum in front of the exported table and writes both to the good blocks of
a range of the flash.  A reset reads them back, checks and imports them, or else takes the
default environment.  Each erase, write and read may fail; what is left then is anything.

* `readLoop_writeLoop` — what is written is read back, whichever blocks are bad;
* `relocate_saveenv` — a reset after `saveenv` has succeeded;
* `saveenv_fails` — what is left when it has not;
* `loads_run` — **in every run a reset loads what was saved last**.
-/
import OpenMptcpRouter.Hashtable.Text

namespace Hashtable

open OpenAddressing

/-! ### The checksum -/

/-- One bit of an entry of `crc_table`. -/
def crcShift (c : UInt32) : UInt32 := if c &&& 1 = 1 then (0xedb88320 : UInt32) ^^^ c >>> 1 else c >>> 1

/-- An entry of `crc_table`, as `make_crc_table` computes it. -/
def crcTable (n : UInt32) : UInt32 := crcShift^[8] n

/-- `DO_CRC`. -/
def doCrc (crc : UInt32) (x : UInt8) : UInt32 :=
  crcTable ((crc ^^^ x.toUInt32) &&& 255) ^^^ (crc >>> 8)

/-- `crc32`. -/
def crc32 (crc : UInt32) (p : Text) : UInt32 := p.foldl doCrc (crc ^^^ 0xffffffff) ^^^ 0xffffffff

/-- The bytes of a checksum in memory. -/
def crcBytes (crc : UInt32) : Text :=
  [crc.toUInt8, (crc >>> 8).toUInt8, (crc >>> 16).toUInt8, (crc >>> 24).toUInt8]

/-! ### The flash -/

/-- A memory, or a buffer. -/
abbrev Bytes := ℕ → UInt8

/-- `len` bytes at `src` are copied to `dst`. -/
def blit (base : Bytes) (dst : ℕ) (bytes : Bytes) (src len : ℕ) : Bytes :=
  fun a => if dst ≤ a ∧ a < dst + len then bytes (src + (a - dst)) else base a

/-- Where the environment is: `CONFIG_ENV_OFFSET`, `CONFIG_ENV_RANGE`, `CONFIG_ENV_SIZE`, the
erase size and the bad blocks of the NAND, and `default_environment`. -/
structure Config where
  offset : ℕ
  range : ℕ
  size : ℕ
  erasesize : ℕ
  /-- `nand_block_isbad` -/
  bad : ℕ → Bool
  dflt : List Entry

/-- How the flash behaves while it is gone through. -/
structure Device where
  /-- what `nand_erase_opts` leaves if not all is erased, and whether it says so: it goes on
  behind a block that cannot be erased -/
  erase : Option (Bytes × Bool)
  /-- `nand_write` to this block fails, and leaves this -/
  write : ℕ → Option Bytes
  /-- `nand_read_skip_bad` of this block fails -/
  read : ℕ → Bool

/-- A device that does not fail. -/
def Device.sound : Device := { erase := none, write := fun _ => none, read := fun _ => false }

namespace Config

variable (c : Config)

/-- `ENV_SIZE`. -/
def envSize : ℕ := c.size - 4

/-- How much is written to a block. -/
def len : ℕ := min c.erasesize c.size

/-- The loop of `writeenv`: the flash it leaves, and `amount_saved` unless a write has failed. -/
def writeLoop (dev : Device) (buf : Bytes) :
    (rounds offset amount : ℕ) → Bytes → Bytes × Option ℕ
  | 0, _, amount, flash => (flash, some amount)
  | rounds + 1, offset, amount, flash =>
    if amount < c.size ∧ offset < c.offset + c.range then
      if c.bad offset then writeLoop dev buf rounds (offset + c.erasesize) amount flash
      else
        match dev.write offset with
        | some left => (left, none)
        | none => writeLoop dev buf rounds (offset + c.erasesize) (amount + c.len)
            (blit flash offset buf amount c.len)
    else (flash, some amount)

/-- The loop of `readenv`: the buffer it leaves, and `amount_loaded` unless a read has failed. -/
def readLoop (dev : Device) (flash : Bytes) :
    (rounds offset amount : ℕ) → Bytes → Bytes × Option ℕ
  | 0, _, amount, buf => (buf, some amount)
  | rounds + 1, offset, amount, buf =>
    if amount < c.size ∧ offset < c.offset + c.range then
      if c.bad offset then readLoop dev flash rounds (offset + c.erasesize) amount buf
      else if dev.read offset then (buf, none)
      else readLoop dev flash rounds (offset + c.erasesize) (amount + c.len)
        (blit buf amount flash offset c.len)
    else (buf, some amount)

/-- `nand_erase_opts` of the range, when it works. -/
def erase (flash : Bytes) : Bytes := fun a =>
  if c.offset ≤ a ∧ a < c.offset + c.range ∧
      c.bad (c.offset + (a - c.offset) / c.erasesize * c.erasesize) = false then 0xff
  else flash a

/-- `nand_saveenv`: the flash, and whether it has succeeded. -/
def saveenv (dev : Device) (h : Htab) (flash : Bytes) : Bytes × Bool :=
  if c.range < c.size then (flash, false)
  else
    match hexportR h 0 c.envSize [] with
    | none => (flash, false)
    | some exported =>
      let data := exported.written.take c.envSize
      let image := crcBytes (crc32 0 data) ++ data
      let erased := dev.erase.getD (c.erase flash, false)
      if erased.2 then (erased.1, false)
      else
        let r := c.writeLoop dev (fun i => image.getD i 0) c.range c.offset 0 erased.1
        (r.1, r.2 = some c.size)

/-- `readenv`. -/
def readenv (dev : Device) (flash : Bytes) : Option Bytes :=
  let r := c.readLoop dev flash c.range c.offset 0 fun _ => 0
  if c.erasesize = 0 ∨ r.2 ≠ some c.size then none else some r.1

/-- `default_environment`. -/
def defaultEnvironment : Text := c.dflt.flatMap (Entry.line 0) ++ [0, 0]

/-- `set_default_env`; the table stays as it is if the default environment is too large. -/
def setDefaultEnv : Option Htab :=
  if c.envSize < c.defaultEnvironment.length then none
  else (himportR none c.defaultEnvironment [] 0 false).map Prod.fst

/-- `nand_env_relocate_spec` and `env_import`, with what is behind the copy of the data in
memory. -/
def relocate (dev : Device) (flash : Bytes) (beyond : Text) : Option Htab :=
  match c.readenv dev flash with
  | none => c.setDefaultEnv
  | some buf =>
    let data := (List.range c.envSize).map fun i => buf (4 + i)
    if crcBytes (crc32 0 data) ≠ (List.range 4).map buf then c.setDefaultEnv
    else
      match himportR none data beyond 0 false with
      | some (h, true) => some h
      | some (_, false) => c.setDefaultEnv
      | none => none

end Config

/-! ### Writing and reading -/

/-- The good blocks that both loops come by. -/
def Config.blocks (c : Config) : (rounds offset amount : ℕ) → List ℕ
  | 0, _, _ => []
  | rounds + 1, offset, amount =>
    if amount < c.size ∧ offset < c.offset + c.range then
      if c.bad offset then c.blocks rounds (offset + c.erasesize) amount
      else offset :: c.blocks rounds (offset + c.erasesize) (amount + c.len)
    else []

section Loops

variable {c : Config} {dev dev' : Device} {rounds offset amount : ℕ} {buf flash : Bytes}

theorem blit_of_mem {base bytes : Bytes} {dst src len a : ℕ} (h : a < len) :
    blit base dst bytes src len (dst + a) = bytes (src + a) := by
  rw [blit, if_pos ⟨Nat.le_add_right .., Nat.add_lt_add_left h dst⟩, Nat.add_sub_cancel_left]

theorem blit_of_lt {base bytes : Bytes} {dst src len a : ℕ} (h : a < dst) :
    blit base dst bytes src len a = base a := by
  rw [blit, if_neg fun h' => absurd h'.1 (Nat.not_le.mpr h)]

/-- A write ends early iff it fails at one of the blocks. -/
theorem writeLoop_amount : (c.writeLoop dev buf rounds offset amount flash).2 =
    if (c.blocks rounds offset amount).all fun o => (dev.write o).isNone then
      some (amount + c.len * (c.blocks rounds offset amount).length)
    else none := by
  induction rounds generalizing offset amount flash with
  | zero => rfl
  | succ rounds ih =>
    rw [Config.writeLoop, Config.blocks]
    split
    · split
      · exact ih
      · cases hwrite : dev.write offset with
        | some left => simp [hwrite]
        | none =>
          dsimp only
          rw [ih, List.all_cons, hwrite, List.length_cons, Nat.mul_succ, Nat.add_assoc,
            Nat.add_comm c.len]
          rfl
    · rfl

/-- A read ends early iff it fails at one of the blocks. -/
theorem readLoop_amount : (c.readLoop dev flash rounds offset amount buf).2 =
    if (c.blocks rounds offset amount).all fun o => !dev.read o then
      some (amount + c.len * (c.blocks rounds offset amount).length)
    else none := by
  induction rounds generalizing offset amount buf with
  | zero => rfl
  | succ rounds ih =>
    rw [Config.readLoop, Config.blocks]
    split
    · split
      · exact ih
      · cases hread : dev.read offset with
        | true => simp [hread]
        | false =>
          rw [if_neg Bool.false_ne_true, ih, List.all_cons, hread, List.length_cons,
            Nat.mul_succ, Nat.add_assoc, Nat.add_comm c.len]
          rfl
    · rfl

/-- Reads that do not fail are all alike. -/
theorem readLoop_sound (h : (c.blocks rounds offset amount).all (fun o => !dev.read o) = true) :
    c.readLoop dev flash rounds offset amount buf =
      c.readLoop Device.sound flash rounds offset amount buf := by
  induction rounds generalizing offset amount buf with
  | zero => rfl
  | succ rounds ih =>
    rw [Config.blocks] at h
    rw [Config.readLoop, Config.readLoop]
    split
    · rename_i hmore
      rw [if_pos hmore] at h
      split
      · rename_i hbad
        rw [if_pos hbad] at h
        exact ih h
      · rename_i hbad
        rw [if_neg hbad, List.all_cons, Bool.and_eq_true, Bool.not_eq_true'] at h
        rw [h.1, if_neg Bool.false_ne_true, ih h.2]
        rfl
    · rfl

/-- What is left when a write has failed. -/
theorem writeLoop_fails (h : (c.writeLoop dev buf rounds offset amount flash).2 = none) :
    ∃ o, dev.write o = some (c.writeLoop dev buf rounds offset amount flash).1 := by
  induction rounds generalizing offset amount flash with
  | zero => cases h
  | succ rounds ih =>
    rw [Config.writeLoop] at h ⊢
    by_cases hmore : amount < c.size ∧ offset < c.offset + c.range
    · rw [if_pos hmore] at h ⊢
      by_cases hbad : c.bad offset = true
      · rw [if_pos hbad] at h ⊢
        exact ih h
      · rw [if_neg hbad] at h ⊢
        cases hwrite : dev.write offset with
        | some left => exact ⟨offset, hwrite⟩
        | none =>
          rw [hwrite] at h
          exact ih h
    · rw [if_neg hmore] at h
      cases h

/-- What has been written stays. -/
theorem writeLoop_of_lt {a : ℕ} (ha : a < offset)
    (h : (c.writeLoop dev buf rounds offset amount flash).2 ≠ none) :
    (c.writeLoop dev buf rounds offset amount flash).1 a = flash a := by
  induction rounds generalizing offset amount flash with
  | zero => rfl
  | succ rounds ih =>
    rw [Config.writeLoop] at h ⊢
    by_cases hmore : amount < c.size ∧ offset < c.offset + c.range
    · rw [if_pos hmore] at h ⊢
      by_cases hbad : c.bad offset = true
      · rw [if_pos hbad] at h ⊢
        exact ih (by omega) h
      · rw [if_neg hbad] at h ⊢
        cases hwrite : dev.write offset with
        | some left =>
          rw [hwrite] at h
          exact absurd rfl h
        | none =>
          rw [hwrite] at h
          dsimp only at h ⊢
          rw [ih (by omega) h, blit_of_lt ha]
    · rw [if_neg hmore]

theorem readLoop_of_lt {a : ℕ} {b : Bytes} (ha : a < amount) :
    (c.readLoop dev flash rounds offset amount b).1 a = b a := by
  induction rounds generalizing offset amount b with
  | zero => rfl
  | succ rounds ih =>
    rw [Config.readLoop]
    split
    · split
      · exact ih ha
      · split
        · rfl
        · rw [ih (by omega), blit_of_lt ha]
    · rfl

/-- **What is written is read back**, whichever blocks are bad. -/
theorem readLoop_writeLoop (hlen : c.len ≤ c.erasesize) (b : Bytes) {i n : ℕ} (hi : amount ≤ i)
    (hwritten : (c.writeLoop dev buf rounds offset amount flash).2 = some n) (hlt : i < n)
    (hread : (c.blocks rounds offset amount).all (fun o => !dev'.read o) = true) :
    (c.readLoop dev' (c.writeLoop dev buf rounds offset amount flash).1 rounds offset amount b).1 i =
      buf i := by
  -- both loops go through the same blocks; what is written later lies behind
  induction rounds generalizing offset amount flash b with
  | zero =>
    obtain rfl := Option.some.inj hwritten
    exact absurd hlt (Nat.not_lt.mpr hi)
  | succ rounds ih =>
    rw [Config.writeLoop] at hwritten ⊢
    rw [Config.blocks] at hread
    rw [Config.readLoop]
    by_cases hmore : amount < c.size ∧ offset < c.offset + c.range
    · rw [if_pos hmore] at hwritten hread ⊢
      rw [if_pos hmore]
      by_cases hbad : c.bad offset = true
      · rw [if_pos hbad] at hwritten hread ⊢
        rw [if_pos hbad]
        exact ih b hi hwritten hread
      · rw [if_neg hbad] at hwritten hread ⊢
        rw [if_neg hbad]
        rw [List.all_cons, Bool.and_eq_true, Bool.not_eq_true'] at hread
        rw [hread.1, if_neg Bool.false_ne_true]
        cases hwrite : dev.write offset with
        | some left =>
          rw [hwrite] at hwritten
          cases hwritten
        | none =>
          rw [hwrite] at hwritten
          dsimp only at hwritten ⊢
          rcases Nat.lt_or_ge i (amount + c.len) with hhere | hlater
          · obtain ⟨k, rfl⟩ := Nat.exists_eq_add_of_le hi
            have hk : k < c.len := by omega
            have hall : (c.writeLoop dev buf rounds (offset + c.erasesize) (amount + c.len)
                (blit flash offset buf amount c.len)).2 ≠ none := by
              rw [hwritten]
              exact Option.some_ne_none n
            rw [readLoop_of_lt hhere, blit_of_mem hk, writeLoop_of_lt (by omega) hall,
              blit_of_mem hk]
          · exact ih _ hlater hwritten hread.2
    · rw [if_neg hmore] at hwritten
      obtain rfl := Option.some.inj hwritten
      exact absurd hlt (Nat.not_lt.mpr hi)

end Loops

/-! ### One reset -/

/-- A configuration the board can boot with. -/
structure Sane (c : Config) : Prop where
  erasesize_pos : 0 < c.erasesize
  plain : ∀ e ∈ c.dflt, Name 0 e.key ∧ Value e.data
  nodup : (c.dflt.map Entry.key).Nodup
  room : c.dflt.length ≤ (hcreateR (nent c.defaultEnvironment.length)).size
  fits : c.defaultEnvironment.length ≤ c.envSize

section Reset

variable {c : Config} {dev : Device} {h : Htab} {flash flash' : Bytes} {beyond : Text}

/-- The separator of a saved environment. -/
theorem sep_zero : (0 : UInt8) ≠ backslash ∧ (0 : UInt8) ≠ 0x3d := by decide

/-- A table for a larger environment has no fewer slots. -/
theorem hcreateR_mono {n m : ℕ} (hn : 4 ≤ n) (hle : n ≤ m) :
    (hcreateR n).size ≤ (hcreateR m).size := by
  obtain ⟨hprime, hge, -⟩ := hcreateR_prime (Nat.le_trans hn hle)
  exact (hcreateR_prime hn).2.2 _ hprime (Nat.le_trans hle hge)

theorem four_le_nent (n : ℕ) : 4 ≤ nent n := by
  rw [nent]
  omega

/-- The largest table. -/
def Config.slotCount (c : Config) : ℕ := (hcreateR (nent c.envSize)).size

theorem Sane.setDefaultEnv (hc : Sane c) :
    ∃ h, c.setDefaultEnv = some h ∧ Good h ∧ h.size ≤ c.slotCount ∧ Lists h.lookup c.dflt := by
  obtain ⟨h, himport, hg, hsize, hl⟩ := himportR_lines sep_zero hc.plain hc.nodup
    c.defaultEnvironment 1 rfl hc.room []
  refine ⟨h, ?_, hg, ?_, hl⟩
  · rw [Config.setDefaultEnv, if_neg (Nat.not_lt.mpr hc.fits), himport]
    rfl
  · rw [hsize]
    refine hcreateR_mono (four_le_nent _) ?_
    have := hc.fits
    rw [nent, nent]
    omega

/-- Nothing can be saved: there are not enough good blocks. -/
def Config.Worn (c : Config) : Prop := c.len * (c.blocks c.range c.offset 0).length ≠ c.size

/-- No read of the blocks of the environment fails. -/
def Config.Readable (c : Config) (dev : Device) : Prop :=
  (c.blocks c.range c.offset 0).all (fun o => !dev.read o) = true

theorem Config.readable_sound (c : Config) : c.Readable Device.sound :=
  List.all_eq_true.mpr fun _ _ => rfl

/-- Nothing that is read is taken for an environment then. -/
theorem relocate_default (h : c.Worn ∨ ¬ c.Readable dev) (flash : Bytes) (beyond : Text) :
    c.relocate dev flash beyond = c.setDefaultEnv := by
  have hread : c.readenv dev flash = none := by
    rw [Config.readenv]
    refine if_pos (Or.inr ?_)
    rw [readLoop_amount]
    split
    · rename_i hread
      rw [Nat.zero_add]
      exact fun heq => h.elim (fun hworn => hworn (Option.some.inj heq)) (fun hnot => hnot hread)
    · exact nofun
  rw [Config.relocate, hread]

/-- All that matters of a device is whether it can be read. -/
theorem relocate_of_readable (h : c.Readable dev) (flash : Bytes) (beyond : Text) :
    c.relocate dev flash beyond = c.relocate Device.sound flash beyond := by
  have hread : c.readenv dev flash = c.readenv Device.sound flash := by
    rw [Config.readenv, Config.readenv, readLoop_sound h]
  rw [Config.relocate, Config.relocate, hread]

/-- The image that has been written is read. -/
theorem readenv_writeLoop (hc : Sane c) {image : Text}
    (hall : (c.writeLoop dev (fun i => image.getD i 0) c.range c.offset 0 flash).2 = some c.size) :
    ∃ buf, c.readenv Device.sound
        (c.writeLoop dev (fun i => image.getD i 0) c.range c.offset 0 flash).1 = some buf ∧
      ∀ i < c.size, buf i = image.getD i 0 := by
  have herase := hc.erasesize_pos
  have hread : (c.blocks c.range c.offset 0).all (fun o => !Device.sound.read o) = true :=
    c.readable_sound
  have hamount : 0 + c.len * (c.blocks c.range c.offset 0).length = c.size := by
    rw [writeLoop_amount] at hall
    split at hall
    · exact Option.some.inj hall
    · cases hall
  refine ⟨_, if_neg ?_, fun i hi => ?_⟩
  · rw [readLoop_amount, if_pos hread, hamount]
    exact fun h => h.elim (Nat.ne_of_gt herase) (fun h => h rfl)
  · exact readLoop_writeLoop (Nat.min_le_left ..) _ (Nat.zero_le i) hall hi hread

/-- **A reset after the environment has been saved.** -/
theorem relocate_saveenv (hc : Sane c) (hg : Good h) (hsize : h.size ≤ c.slotCount)
    (hplain : ∀ k v, h.lookup k = some v → Name 0 k ∧ Value v)
    (hfits : ∀ b, hexportR h 0 c.envSize [] = some b → b.written.length = b.size)
    (hsave : c.saveenv dev h flash = (flash', true)) (beyond : Text) :
    ∃ h', c.relocate Device.sound flash' beyond = some h' ∧ Good h' ∧ h'.size = c.slotCount ∧
      h'.lookup = h.lookup := by
  rw [Config.saveenv] at hsave
  split at hsave
  · cases hsave
  split at hsave
  · cases hsave
  rename_i exported hexport
  dsimp only at hsave
  split at hsave
  · cases hsave
  have hpos : 2 ≤ c.envSize := by
    have := hc.fits
    rw [Config.defaultEnvironment, List.length_append] at this
    simp only [List.length_cons, List.length_nil] at this
    omega
  have hfull : exported.size = c.envSize :=
    (hexportR_some hexport).1.trans (if_neg (by omega))
  have hwritten : exported.written.length = c.envSize := (hfits exported hexport).trans hfull
  have hroom : h.filled ≤ (hcreateR (nent exported.size)).size := by
    rw [hfull]
    refine Nat.le_trans ?_ hsize
    rw [hg.filled, load]
    refine Nat.le_trans (Finset.card_filter_le ..) ?_
    rw [slots, Nat.card_Icc]
    omega
  obtain ⟨h', himport, hg', hsize', hlookup⟩ := hg.import_export sep_zero hplain hexport
    (hfits exported hexport) hroom beyond
  rw [hfull] at hsize'
  -- the image that was written
  rw [List.take_of_length_le (Nat.le_of_eq hwritten)] at hsave
  obtain ⟨hflash, hall⟩ := Prod.mk.inj hsave
  obtain ⟨buf, hload, hbuf⟩ := readenv_writeLoop hc (of_decide_eq_true hall)
  rw [hflash] at hload
  have hdata : (List.range c.envSize).map (fun i => buf (4 + i)) = exported.written := by
    refine List.ext_getElem (by simp [hwritten]) fun i hi hi' => ?_
    have hlt : i < c.envSize := by simpa using hi
    have hlt' : 4 + i < c.size := by
      rw [Config.envSize] at hlt
      omega
    rw [List.getElem_map, List.getElem_range, hbuf _ hlt']
    show (crcBytes _ ++ exported.written).getD (4 + i) 0 = _
    rw [List.getD_append_right _ _ _ _ (Nat.le_add_right 4 i)]
    show exported.written.getD (4 + i - 4) 0 = _
    rw [Nat.add_sub_cancel_left, List.getD_eq_getElem]
  have hcrc : (List.range 4).map buf = crcBytes (crc32 0 exported.written) := by
    have hsize : 4 ≤ c.size := by
      rw [Config.envSize] at hpos
      omega
    have hbyte : ∀ i < 4, buf i = (crcBytes (crc32 0 exported.written) ++ exported.written).getD i 0 :=
      fun i hi => hbuf i (by omega)
    show [buf 0, buf 1, buf 2, buf 3] = _
    rw [hbyte 0 (by decide), hbyte 1 (by decide), hbyte 2 (by decide), hbyte 3 (by decide)]
    rfl
  refine ⟨h', ?_, hg', hsize', hlookup⟩
  rw [Config.relocate, hload]
  dsimp only
  rw [hdata, hcrc, if_neg (not_not.mpr rfl), himport]

/-- `saveenv` comes as far as erasing the flash. -/
def Config.Erases (c : Config) (h : Htab) : Prop :=
  c.size ≤ c.range ∧ (hexportR h 0 c.envSize []).isSome = true

instance (c : Config) (h : Htab) : Decidable (c.Erases h) := by
  unfold Config.Erases
  infer_instance

/-- What the flash is left with when an erase or a write returns an error. -/
def Device.Leaves (dev : Device) (flash : Bytes) : Prop :=
  dev.erase = some (flash, true) ∨ ∃ o, dev.write o = some flash

/-- **A `saveenv` that fails.**  Nothing has been erased, or the device has failed, or there are
not enough good blocks. -/
theorem saveenv_fails (hsave : c.saveenv dev h flash = (flash', false)) :
    (¬ c.Erases h ∧ flash' = flash) ∨ c.Erases h ∧ (dev.Leaves flash' ∨ c.Worn) := by
  rw [Config.saveenv] at hsave
  split at hsave
  · rename_i hrange
    exact Or.inl ⟨fun herases => absurd hrange (Nat.not_lt.mpr herases.1),
      (Prod.mk.inj hsave).1.symm⟩
  rename_i hrange
  cases hexport : hexportR h 0 c.envSize [] with
  | none =>
    rw [hexport] at hsave
    refine Or.inl ⟨fun herases => ?_, (Prod.mk.inj hsave).1.symm⟩
    rw [Config.Erases, hexport] at herases
    exact Bool.false_ne_true herases.2
  | some exported =>
    rw [hexport] at hsave
    dsimp only at hsave
    refine Or.inr ⟨⟨Nat.not_lt.mp hrange, by rw [hexport]; rfl⟩, ?_⟩
    by_cases hreported : (dev.erase.getD (c.erase flash, false)).2 = true
    · rw [if_pos hreported] at hsave
      cases herase : dev.erase with
      | none =>
        rw [herase] at hreported
        cases hreported
      | some erased =>
        rw [herase] at hreported hsave
        exact Or.inl (Or.inl (herase.trans
          (congrArg some (Prod.ext (Prod.mk.inj hsave).1 hreported))))
    · rw [if_neg hreported] at hsave
      obtain ⟨hflash, hall⟩ := Prod.mk.inj hsave
      have hne := of_decide_eq_false hall
      cases hamount : (c.writeLoop dev _ c.range c.offset 0
          (dev.erase.getD (c.erase flash, false)).1).2 with
      | none =>
        rw [← hflash]
        exact Or.inl (Or.inr (writeLoop_fails hamount))
      | some n =>
        refine Or.inr fun hsize => ?_
        rw [writeLoop_amount, Nat.zero_add, hsize] at hne
        rw [writeLoop_amount] at hamount
        split at hamount
        · exact hne (if_pos ‹_›)
        · cases hamount

end Reset

/-! ### Runs -/

/-- What is done with the board, and how the flash behaves then. -/
inductive Event
  | op (op : Op)
  | save (dev : Device)
  | reset (dev : Device) (beyond : Text)

/-- The table in the RAM and the flash. -/
structure Board where
  htab : Htab
  flash : Bytes

/-- One step of the board, and whether it has succeeded. -/
def Board.step (c : Config) (b : Board) : Event → Board × Bool
  | .op op => ({ b with htab := (b.htab.step op).1 }, (b.htab.step op).2.isSome)
  | .save dev =>
    ({ b with flash := (c.saveenv dev b.htab b.flash).1 }, (c.saveenv dev b.htab b.flash).2)
  | .reset dev beyond =>
    match c.relocate dev b.flash beyond with
    | some h => ({ b with htab := h }, true)
    | none => (b, false)

/-- The table of the default environment. -/
def Config.standard (c : Config) : Htab := c.setDefaultEnv.getD (hcreateR (nent 0))

/-- The board, and the variables that were saved last. -/
structure Watch where
  board : Board
  saved : Text → Option Text

/-- The variables that are saved behind a step: those of the last save that has succeeded.  Once
the flash has been erased for one that fails, nothing is. -/
def Watch.savedBy (c : Config) (w : Watch) (ok : Bool) : Event → Text → Option Text
  | .save _ =>
    if ok then w.board.htab.lookup
    else if c.Erases w.board.htab then c.standard.lookup
    else w.saved
  | _ => w.saved

/-- One step of the board. -/
def Watch.step (c : Config) (w : Watch) (event : Event) : Watch × Bool :=
  let r := w.board.step c event
  ({ board := r.1, saved := w.savedBy c r.2 event }, r.2)

/-- The board with its default environment. -/
def Watch.start (c : Config) (flash : Bytes) : Watch :=
  { board := { htab := c.standard, flash := flash }, saved := c.standard.lookup }

/-- Names and values can be read back, no entry overwrites another one, the export stays in its
buffer, and what a failing device leaves is not taken for an environment. -/
def Plain (c : Config) (w : Watch) : Event → Prop
  | .op (.enter key data) => ¬ w.board.htab.Clobbers key ∧ Name 0 key ∧ Value data
  | .save dev =>
    (∀ e ∈ hexportR w.board.htab 0 c.envSize [], e.written.length = e.size) ∧
      ∀ left, dev.Leaves left → ∀ beyond, c.relocate Device.sound left beyond = c.setDefaultEnv
  | _ => True

/-- A reset has succeeded, and the variables are those that were saved last, or the default ones
if a block cannot be read. -/
def Loads (c : Config) (w : Watch) : Event → Prop
  | .reset dev beyond => (w.step c (.reset dev beyond)).2 = true ∧
      (c.Readable dev → (w.step c (.reset dev beyond)).1.board.htab.lookup = w.saved) ∧
      (¬ c.Readable dev →
        (w.step c (.reset dev beyond)).1.board.htab.lookup = c.standard.lookup)
  | _ => True

/-- A table that can be saved and loaded. -/
structure Sound (c : Config) (h : Htab) : Prop where
  good : Good h
  size : h.size ≤ c.slotCount
  plain : ∀ k v, h.lookup k = some v → Name 0 k ∧ Value v

/-- The invariant of the board. -/
structure Kept (c : Config) (w : Watch) : Prop where
  sound : Sound c w.board.htab
  loads : ∀ beyond, ∃ h, c.relocate Device.sound w.board.flash beyond = some h ∧ Sound c h ∧
    h.lookup = w.saved

theorem Sane.standard {c : Config} (hc : Sane c) :
    c.setDefaultEnv = some c.standard ∧ Sound c c.standard := by
  obtain ⟨h, hdefault, hg, hsize, hl⟩ := hc.setDefaultEnv
  have hstandard : c.standard = h := by
    rw [Config.standard, hdefault]
    rfl
  rw [hstandard]
  refine ⟨hdefault, hg, hsize, fun k v hv => ?_⟩
  obtain ⟨e, he, rfl, rfl⟩ := (hl.lookup k v).mp hv
  exact hc.plain e he

section Runs

variable {c : Config} {w : Watch}

theorem Sound.op {h : Htab} (hs : Sound c h) {op : Op}
    (hp : ∀ key data, op = .enter key data → ¬ h.Clobbers key ∧ Name 0 key ∧ Value data) :
    Sound c (h.step op).1 := by
  obtain ⟨hgood, hsize, hstep⟩ := hs.good.step op fun key data heq => (hp key data heq).1
  refine ⟨hgood, hsize.trans_le hs.size, fun k v hv => ?_⟩
  rw [show (h.step op).1.lookup = _ from congrArg Prod.fst hstep] at hv
  cases op with
  | find key => exact hs.plain k v hv
  | enter key data =>
    rw [mapStep] at hv
    split at hv
    · exact hs.plain k v hv
    · have hv' : Function.update h.lookup key (some data) k = some v := hv
      by_cases hkey : k = key
      · rw [hkey, Function.update_self] at hv'
        rw [hkey, ← Option.some.inj hv']
        exact (hp key data rfl).2
      · rw [Function.update_of_ne hkey] at hv'
        exact hs.plain k v hv'
  | delete key =>
    have hv' : Function.update h.lookup key none k = some v := hv
    by_cases hkey : k = key
    · rw [hkey, Function.update_self] at hv'
      cases hv'
    · rw [Function.update_of_ne hkey] at hv'
      exact hs.plain k v hv'

theorem Kept.op (hk : Kept c w) {op : Op} (hp : Plain c w (.op op)) :
    Kept c (w.step c (.op op)).1 := by
  refine ⟨hk.sound.op ?_, hk.loads⟩
  rintro key data rfl
  exact hp

/-- The flash behind a save is read as what is counted as saved. -/
theorem Kept.save (hc : Sane c) (hk : Kept c w) {dev : Device} (hp : Plain c w (.save dev)) :
    Kept c (w.step c (.save dev)).1 := by
  obtain ⟨hdefault, hstandard⟩ := hc.standard
  rcases hsave : c.saveenv dev w.board.htab w.board.flash with ⟨flash', ok⟩
  have hstep : (w.step c (.save dev)).1 =
      ⟨⟨w.board.htab, flash'⟩, w.savedBy c ok (.save dev)⟩ := by
    rw [Watch.step, Board.step, hsave]
  rw [hstep]
  refine ⟨hk.sound, fun beyond => ?_⟩
  show ∃ h, c.relocate Device.sound flash' beyond = some h ∧ _
  rw [Watch.savedBy]
  cases ok with
  | true =>
    obtain ⟨h', hload, hg', hsize, hlookup⟩ := relocate_saveenv hc hk.sound.good hk.sound.size
      hk.sound.plain hp.1 hsave beyond
    refine ⟨h', hload, ⟨hg', Nat.le_of_eq hsize, ?_⟩, hlookup⟩
    rw [hlookup]
    exact hk.sound.plain
  | false =>
    rcases saveenv_fails hsave with ⟨hnot, rfl⟩ | ⟨herases, hleft⟩
    · rw [if_neg Bool.false_ne_true, if_neg hnot]
      exact hk.loads beyond
    · rw [if_neg Bool.false_ne_true, if_pos herases]
      refine ⟨c.standard, ?_, hstandard, rfl⟩
      rw [← hdefault]
      rcases hleft with hleaves | hworn
      · exact hp.2 flash' hleaves beyond
      · exact relocate_default (Or.inl hworn) flash' beyond

theorem Kept.reset (hc : Sane c) (hk : Kept c w) (dev : Device) (beyond : Text) :
    Kept c (w.step c (.reset dev beyond)).1 ∧ Loads c w (.reset dev beyond) := by
  have hstep : ∀ h, c.relocate dev w.board.flash beyond = some h →
      w.step c (.reset dev beyond) = (⟨⟨h, w.board.flash⟩, w.saved⟩, true) := by
    intro h hload
    rw [Watch.step, Board.step, hload]
    rfl
  by_cases hread : c.Readable dev
  · obtain ⟨h, hload, hsound, hlookup⟩ := hk.loads beyond
    rw [← relocate_of_readable hread] at hload
    rw [Loads, hstep h hload]
    exact ⟨⟨hsound, hk.loads⟩, rfl, fun _ => hlookup, fun hnot => absurd hread hnot⟩
  · obtain ⟨hdefault, hstandard⟩ := hc.standard
    have hload := (relocate_default (Or.inr hread) w.board.flash beyond).trans hdefault
    rw [Loads, hstep _ hload]
    exact ⟨⟨hstandard, hk.loads⟩, rfl, fun hyes => absurd hyes hread, fun _ => rfl⟩

/-- **One step of the board.** -/
theorem Kept.step (hc : Sane c) (hk : Kept c w) (event : Event) (hp : Plain c w event) :
    Kept c (w.step c event).1 ∧ Loads c w event := by
  cases event with
  | op op => exact ⟨hk.op hp, trivial⟩
  | save dev => exact ⟨hk.save hc hp, trivial⟩
  | reset dev beyond => exact hk.reset hc dev beyond

/-- **A reset loads what was saved last**, or the default environment if nothing was or a save
has failed since, in every run from a flash without an environment on: whatever has been set
and deleted since, and whichever blocks are bad.  If a block cannot be read, it loads the
default environment. -/
theorem loads_run (c : Config) (hc : Sane c) (flash : Bytes)
    (hblank : ∀ beyond, c.relocate Device.sound flash beyond = c.setDefaultEnv) (events : List Event)
    (hplain : Run.AllSteps (Watch.step c) (Plain c) (Watch.start c flash) events) :
    Run.AllSteps (Watch.step c) (Loads c) (Watch.start c flash) events := by
  obtain ⟨hdefault, hstandard⟩ := hc.standard
  have hkept : Kept c (Watch.start c flash) := by
    refine ⟨hstandard, fun beyond => ?_⟩
    exact ⟨c.standard, (hblank beyond).trans hdefault, hstandard, rfl⟩
  exact Run.allSteps_of_invariant (Kept c) (fun _ event hk hp => (hk.step hc event hp).1)
    (fun _ event hk hp => (hk.step hc event hp).2) hkept hplain

end Runs

/-- A name of one character. -/
theorem name_singleton {x : UInt8} (hplain : x ≠ 0x3d ∧ x ≠ 0)
    (hhead : isblank x = false ∧ x ≠ 0x23) : Name 0 [x] := by
  refine ⟨fun c hc => ?_, fun c hc => ?_⟩
  · rw [List.mem_singleton.mp hc]
    exact ⟨hplain.1, hplain.2, hplain.2⟩
  · cases hc
    exact hhead

/-- A board with two good blocks among three, and one variable by default. -/
def tiny : Config where
  offset := 0
  range := 96
  size := 64
  erasesize := 32
  bad := fun offset => offset = 32
  dflt := [{ used := 1, key := CString.ascii "a", data := CString.ascii "1" }]

theorem tiny_sane : Sane tiny := by
  refine ⟨by decide, ?_, by decide, ?_, by decide⟩
  · intro e he
    rw [List.mem_singleton.mp he]
    exact ⟨name_singleton (by decide) (by decide), by decide, by decide⟩
  · exact Nat.le_trans (by decide) (hcreateR_prime (four_le_nent _)).2.1

/-- A device that fails to write the third block, and leaves zeros. -/
def Device.third : Device :=
  { Device.sound with write := fun o => if o = 64 then some fun _ => 0 else none }

/-- What was set is saved, and loaded after it has been deleted; a save that fails loses it. -/
def tinyRun : List Event :=
  [.op (.enter (CString.ascii "b") (CString.ascii "\\2")), .save Device.sound,
    .op (.delete (CString.ascii "b")), .reset Device.sound [], .save Device.third,
    .reset Device.sound []]

/-- Zeros are no environment. -/
theorem tiny_blank (beyond : Text) :
    tiny.relocate Device.sound (fun _ => 0) beyond = tiny.setDefaultEnv := by
  have hcrc : ∀ buf ∈ tiny.readenv Device.sound fun _ => 0,
      crcBytes (crc32 0 ((List.range tiny.envSize).map fun i => buf (4 + i))) ≠
        (List.range 4).map buf := by
    decide +kernel
  rw [Config.relocate]
  split
  · rfl
  · rename_i buf hread
    exact if_pos (hcrc buf hread)

theorem Device.not_leaves {left : Bytes} : ¬ Device.sound.Leaves left := by
  rintro (herase | ⟨o, hwrite⟩)
  · cases herase
  · cases hwrite

theorem tinyRun_plain :
    Run.AllSteps (Watch.step tiny) (Plain tiny) (Watch.start tiny fun _ => 0) tinyRun := by
  refine ⟨⟨by decide +kernel, name_singleton (by decide) (by decide), by decide, by decide⟩,
    ⟨?_, fun left hleft => absurd hleft Device.not_leaves⟩, trivial, trivial, ⟨?_, ?_⟩, trivial,
    trivial⟩
  · show ∀ e ∈ hexportR _ 0 tiny.envSize [], e.written.length = e.size
    decide +kernel
  · show ∀ e ∈ hexportR _ 0 tiny.envSize [], e.written.length = e.size
    decide +kernel
  · -- the third block is left with zeros, and so is all the rest
    rintro left (herase | ⟨o, hwrite⟩)
    · cases herase
    · dsimp only [Device.third] at hwrite
      split at hwrite
      · rw [← Option.some.inj hwrite]
        exact tiny_blank
      · cases hwrite

theorem loads_run_tiny :
    (Run.exec (Watch.step tiny) (Watch.start tiny fun _ => 0) (tinyRun.take 4)).board.htab.lookup
        (CString.ascii "b") = some (CString.ascii "\\2") ∧
      (Run.exec (Watch.step tiny) (Watch.start tiny fun _ => 0) tinyRun).board.htab.lookup
        (CString.ascii "b") = none := by
  have hread := tiny.readable_sound
  obtain ⟨-, -, -, hfirst, -, hsecond, -⟩ :=
    loads_run tiny tiny_sane (fun _ => 0) tiny_blank tinyRun tinyRun_plain
  constructor
  · rw [show (Run.exec (Watch.step tiny) (Watch.start tiny fun _ => 0)
      (tinyRun.take 4)).board.htab.lookup = _ from hfirst.2.1 hread]
    decide +kernel
  · rw [show (Run.exec (Watch.step tiny) (Watch.start tiny fun _ => 0) tinyRun).board.htab.lookup = _
      from hsecond.2.1 hread]
    decide +kernel

end Hashtable

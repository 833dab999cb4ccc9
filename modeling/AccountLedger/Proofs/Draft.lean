import AccountLedger.Proofs.Instructions
import AccountLedger.Proofs.Seats
import AccountLedger.Token.Call
/-!
# Scenes as drafts of a store

While business logic runs, its table is the draft of a store.  What is said here of each call of
business logic is said about that store: the keys are those of the instruction, and the calls of the
token program change the holdings and mints as the program does.

* `Drafts.invoked`: a call that returns was carried out by its program;
* `Drafts.transferred`, `Drafts.closed`, `Drafts.opened` and the like: the calls of the token
  programs;
* `Drafts.made`, `Drafts.saved`: how a record comes into being.
-/

namespace AccountLedger

open Logic (Returns)

namespace Logic.Returns

variable {α : Type} {f : Frame} {scene last : Scene Ledger} {m : Logic α} {a : α}

theorem natives_eq (h : Returns Ledger.host f scene m a last) :
    last.ledger.natives = scene.ledger.natives := by
  have hrun : (m.run Ledger.host f scene).2 = last := congrArg (·.2) h
  rw [← hrun]
  exact run_ledger Ledger.host f (·.natives) (fun _ _ => rfl) m scene

theorem seated {layout : Layout} {metas : List Meta} (h : Returns Ledger.host f scene m a last)
    (seated : scene.table.Seated layout metas) : last.table.Seated layout metas :=
  ⟨seated.enough, h.seats_eq.trans seated.seats⟩

end Logic.Returns

/-- No operation marks a signer, unless it makes an account at an address of the program. -/
theorem Logic.Returns.marked {f : Frame} {scene last : Scene Ledger} {op : Op} {answer : op.Answer}
    {P : Key → Prop} (h : Returns Ledger.host f scene (perform op) answer last)
    (plain : ∀ payer target space owner seeds rent,
      op ≠ .create payer target space owner (some seeds) rent)
    (marked : ∀ h ∈ scene.table.handles, h.signer = true → P h.key) :
    ∀ h ∈ last.table.handles, h.signer = true → P h.key := by
  have step := op.run_step Ledger.host f scene
  rw [Logic.returns_perform_iff.1 h] at step
  intro g' hg' hs
  obtain ⟨position, here'⟩ := List.getElem?_of_mem hg'
  obtain ⟨g, here, change⟩ := step.changed here'
  rw [change.fixed.1]
  rcases change.signer hs with hmark | ⟨_, _, _, _, _, _, _, hop, _⟩
  · exact marked g (List.mem_of_getElem? here) hmark
  · exact absurd hop (plain _ _ _ _ _ _)

/-- The ledger knows the derived address of the canonical bump. -/
theorem Logic.returns_found_iff {f : Frame} {scene last : Scene Ledger} {seeds : List String}
    {found x : Key × UInt8} (known : (Address.find f.program seeds).toOption = some found) :
    Returns Ledger.host f scene (findAddress seeds) x last ↔ last = scene ∧ x = found := by
  have hlimits : Address.checkLimits seeds = .ok () := by
    cases hfind : Address.find f.program seeds with
    | error e => rw [hfind] at known; cases known
    | ok y => exact (Address.find_eq_ok_iff.1 hfind).1
  have hhost : Ledger.host.findAddress scene.ledger seeds f.program = some found := known
  rw [returns_findAddress_iff, hlimits, hhost, Option.some.injEq]
  simp [eq_comm]

/-! ## what is read before anything changes -/

/-- the schema that a layout binds under a name -/
def Layout.tag? (layout : Layout) (name : String) : Option Tag :=
  (layout.position? name).bind fun position =>
    layout.specs[position]?.bind fun spec => spec.data.map (·.tag)

namespace Table.Seated

variable {σ : Type} {host : Host σ} {layout : Layout} {i : Instruction} {s : Store} {f : Frame}
  {scene last : Scene σ}

theorem handle_named (seated : scene.table.Seated layout i.metas) (shown : scene.table.Shows s)
    (name : String) {P : Account → Prop} {Q : Option Tag → Prop} :
    (∃ position, scene.table.positionOf name = .ok position ∧
      ∃ h, scene.table.handles[position]? = some h ∧ Q h.tag ∧ P h.account) ↔
      ∃ key, layout.keyOf? i name = some key ∧ Q (layout.tag? name) ∧ P (s.read key) := by
  simp only [seated.positionOf_eq_ok_iff, Layout.keyOf?, Layout.tag?]
  cases hp : layout.position? name with
  | none => simp
  | some position =>
    simp only [Option.some.injEq, exists_eq_left', Option.bind_some]
    refine ⟨?_, ?_⟩
    · rintro ⟨h, here, hQ, hP⟩
      obtain ⟨m, hm, hseat⟩ := seated.handle_at here
      have htag : h.tag = layout.specs[position]?.bind fun spec => spec.data.map (·.tag) :=
        congrArg Seat.tag hseat
      refine ⟨h.key, ?_, htag ▸ hQ, shown h (List.mem_of_getElem? here) ▸ hP⟩
      rw [hm, Option.map_some]
      exact congrArg some (congrArg Seat.key hseat).symm
    · rintro ⟨key, hkey, hQ, hP⟩
      obtain ⟨m, hm, rfl⟩ := Option.map_eq_some_iff.1 hkey
      obtain ⟨h, here, hseat⟩ := seated.exists_handle hm
      have htag : h.tag = layout.specs[position]?.bind fun spec => spec.data.map (·.tag) :=
        congrArg Seat.tag hseat
      have hkey : h.key = m.key := congrArg Seat.key hseat
      refine ⟨h, here, htag ▸ hQ, ?_⟩
      rw [shown h (List.mem_of_getElem? here), hkey]
      exact hP

theorem returns_holdingOf_iff (seated : scene.table.Seated layout i.metas)
    (shown : scene.table.Shows s) {name : String} {held : Token.Holding} :
    Returns host f scene (Token.Call.holdingOf name) held last ↔
      last = scene ∧ ∃ key, layout.keyOf? i name = some key ∧
        (s.read key).owner = Token.program ∧ Token.Holding.unpack (s.read key).data = .ok held := by
  rw [Token.Call.returns_holdingOf_iff]
  have := seated.handle_named shown name (Q := fun _ => True)
    (P := fun a => a.owner = Token.program ∧ Token.Holding.unpack a.data = .ok held)
  simp only [true_and] at this
  rw [this]

theorem returns_mintOf_iff (seated : scene.table.Seated layout i.metas)
    (shown : scene.table.Shows s) {name : String} {m : Token.Mint} :
    Returns host f scene (Token.Call.mintOf name) m last ↔
      last = scene ∧ ∃ key, layout.keyOf? i name = some key ∧
        (s.read key).owner = Token.program ∧ Token.Mint.unpack (s.read key).data = .ok m := by
  rw [Token.Call.returns_mintOf_iff]
  have := seated.handle_named shown name (Q := fun _ => True)
    (P := fun a => a.owner = Token.program ∧ Token.Mint.unpack a.data = .ok m)
  simp only [true_and] at this
  rw [this]

theorem returns_record_iff (seated : scene.table.Seated layout i.metas)
    (shown : scene.table.Shows s) {α : Type} [Record α] {name : String} {a : α} :
    Returns host f scene (Logic.record α name) a last ↔
      last = scene ∧ ∃ key, layout.keyOf? i name = some key ∧
        layout.tag? name = some (Record.tag α) ∧ Record.decode (s.read key).data = .ok a := by
  rw [Logic.returns_record_iff, ← seated.handle_named shown name
    (Q := fun tag => tag = some (Record.tag α))
    (P := fun account => Record.decode account.data = .ok a)]
  have hrecord : ∀ position, scene.table.record α position = .ok a ↔
      ∃ h, scene.table.handles[position]? = some h ∧ h.tag = some (Record.tag α) ∧
        Record.decode h.account.data = .ok a := by
    intro position
    unfold Table.record
    cases hh : scene.table.handle position with
    | error e =>
      simp only [reduceCtorEq, false_iff, not_exists, ← Table.handle_eq_ok_iff, hh]
      simp
    | ok h =>
      simp only [← Table.handle_eq_ok_iff, hh, mapError_eq_ok_iff, Handle.record, bind_eq_ok_iff,
        Handle.boundTag_eq_ok_iff, Except.ok.injEq, exists_eq_left', Record.decode]
      refine ⟨?_, ?_⟩
      · rintro ⟨_, ⟨htag, rfl⟩, hdecode⟩
        exact ⟨htag, hdecode⟩
      · rintro ⟨htag, hdecode⟩
        exact ⟨_, ⟨htag, rfl⟩, hdecode⟩
  simp only [hrecord]

end Table.Seated

/-! ## drafts -/

def Instruction.key? (i : Instruction) (position : Nat) : Option Key :=
  i.metas[position]?.map (·.key)

theorem Layout.keyOf?_eq {layout : Layout} {name : String} {position : Nat}
    (named : layout.position? name = some position) (i : Instruction) :
    layout.keyOf? i name = i.key? position := by
  rw [keyOf?, named]
  rfl

/-- the layout gives the keys of an instruction these names -/
def Layout.Gives (layout : Layout) (i : Instruction) (named : List (String × Key)) : Prop :=
  ∀ e ∈ named, layout.keyOf? i e.1 = some e.2

@[simp] theorem Layout.gives_nil (layout : Layout) (i : Instruction) : layout.Gives i [] :=
  nofun

@[simp] theorem Layout.gives_cons {layout : Layout} {i : Instruction} {name : String} {key : Key}
    {rest : List (String × Key)} :
    layout.Gives i ((name, key) :: rest) ↔ layout.keyOf? i name = some key ∧ layout.Gives i rest :=
  List.forall_mem_cons

/-- the position shows the store, and no other one of its key is touched -/
def Table.Sole (s : Store) (t : Table) (position : Nat) : Prop :=
  ∃ h, t.handles[position]? = some h ∧ h.account = s.read h.key ∧
    ∀ other g, t.handles[other]? = some g → g.isDirty = true → g.key = h.key → other = position

theorem Table.Shows.sole {s : Store} {t : Table} (shown : t.Shows s) (clean : t.Clean)
    {position : Nat} {h : Handle} (here : t.handles[position]? = some h) : t.Sole s position :=
  ⟨h, here, shown h (List.mem_of_getElem? here), fun _ g hg hd =>
    absurd hd (by simp [clean g (List.mem_of_getElem? hg)])⟩

/-- the key signed the instruction -/
def Instruction.Signed (i : Instruction) (key : Key) : Prop :=
  ∃ m ∈ i.metas, m.signer = true ∧ m.key = key

/-- The key may sign in a call that a program makes while it carries out the instruction: it signed
the instruction, or the seeds of the call speak for it. -/
def Instruction.Voices (i : Instruction) (program : Key) (seeds : List SignerSeeds) (key : Key) :
    Prop :=
  i.Signed key ∨ ∃ s ∈ seeds, s.derive program = .ok key

/-- A call without seeds is signed by those who signed the instruction. -/
theorem Instruction.signed_of_voices {i : Instruction} {program key : Key}
    (h : i.Voices program [] key) : i.Signed key := by
  rcases h with h | ⟨_, hmem, _⟩
  · exact h
  · cases hmem

/-- a scene whose table is the draft of a store, in an invocation of an instruction on a ledger -/
structure Scene.Drafts (l : Ledger) (layout : Layout) (i : Instruction) (now : Store)
    (scene : Scene Ledger) : Prop where
  seated : scene.table.Seated layout i.metas
  mirrors : scene.table.Mirrors l.store now
  natives : scene.ledger.natives = l.natives
  marked : ∀ h ∈ scene.table.handles, h.signer = true → i.Signed h.key

/-- Nothing is kept for free. -/
theorem Rent.ne_zero {space : Nat} {rent : Amount}
    (small : (overhead + space) * perByteYear < exactLimit) (h : minimum space = .ok rent) :
    rent ≠ 0 := by
  rw [minimum_eq_ok small, Except.ok.injEq] at h
  simp only [exactLimit, years, overhead, perByteYear] at small h
  have hnat : rent.toNat = 2 * ((128 + space) * 3480) := by
    rw [← h, UInt64.toNat_ofNat_of_lt']
    simp only [UInt64.size]
    omega
  intro hzero
  rw [hzero, UInt64.toNat_zero] at hnat
  omega

namespace Scene.Drafts

variable {l : Ledger} {layout : Layout} {i j : Instruction} {now : Store} {f : Frame}
  {scene last : Scene Ledger} {u : Unit} {seeds : List SignerSeeds}

theorem returns_keyAt_iff (drafts : scene.Drafts l layout i now) {position : Nat} {key : Key} :
    Returns Ledger.host f scene (Logic.keyAt position) key last ↔
      last = scene ∧ i.key? position = some key := by
  rw [Logic.returns_keyAt_iff, drafts.seated.keyAt_iff]
  rfl

/-- An instruction that returns was carried out by its program, on the store of the draft. -/
theorem invoked (drafts : scene.Drafts l layout i now) {program : Native} {P : Store → Prop}
    (loaded : l.native? j.program = some program)
    (turns : ∀ calls, InnerCall.Turns program calls j now P)
    (h : Returns Ledger.host f scene (Logic.invokeInstruction j seeds) u last) :
    (∀ m ∈ j.metas, m.signer = true → i.Voices f.program seeds m.key) ∧
      ∃ now', P now' ∧ last.Drafts l layout i now' := by
  have hrun := Logic.returns_perform_iff.1 h
  have hloaded : scene.ledger.native? j.program = some program := by
    rw [← loaded, Ledger.native?, Ledger.native?, drafts.natives]
  simp only [Op.run, Op.onBoth] at hrun
  split at hrun
  · rename_i t' l' hcall
    obtain ⟨_, rfl⟩ := Prod.mk.inj hrun
    obtain ⟨⟨now', hP, mirrors⟩, _⟩ := drafts.mirrors.called hloaded hcall (turns _)
    refine ⟨fun m hm signer => ?_, now', hP, h.seated drafts.seated, mirrors,
      h.natives_eq.trans drafts.natives, h.marked (by simp) drafts.marked⟩
    obtain ⟨g, hg, hkey, voiced⟩ := InnerCall.voiced_of_invokeInstruction hcall hm signer
    exact voiced.imp (fun mark => hkey ▸ drafts.marked g hg mark) id
  · cases hrun

/-! ## calls of the token program -/

section

variable {source destination authority payer holding mint target wallet : Nat} {amount : Amount}
  {owner : Key} {kind : Token.AuthorityKind} {successor : Option Key}

theorem transferred (drafts : scene.Drafts l layout i now)
    (tokens : l.natives Token.program = some Token.native)
    (h : Returns Ledger.host f scene
      (Token.Call.transfer source destination authority amount seeds) u last) :
    ∃ a b c, i.key? source = some a ∧ i.key? destination = some b ∧ i.key? authority = some c ∧
      i.Voices f.program seeds c ∧
        ∃ now', Token.Transfers now a b c amount now' ∧ last.Drafts l layout i now' := by
  simp only [Token.Call.transfer, Logic.returns_bind_iff, drafts.returns_keyAt_iff, and_assoc,
    exists_eq_left] at h
  obtain ⟨a, ha, b, hb, c, hc, h⟩ := h
  obtain ⟨voices, turned⟩ :=
    drafts.invoked (j := Token.transfer a b c amount) tokens (fun _ => Token.turns_transfer) h
  exact ⟨a, b, c, ha, hb, hc, voices ⟨c, true, false⟩ (by simp [Token.transfer]) rfl, turned⟩

theorem closed (drafts : scene.Drafts l layout i now)
    (tokens : l.natives Token.program = some Token.native)
    (h : Returns Ledger.host f scene
      (Token.Call.close holding destination authority seeds) u last) :
    ∃ a b c, i.key? holding = some a ∧ i.key? destination = some b ∧ i.key? authority = some c ∧
      i.Voices f.program seeds c ∧
        ∃ now', Token.Closes now a b c now' ∧ last.Drafts l layout i now' := by
  simp only [Token.Call.close, Logic.returns_bind_iff, drafts.returns_keyAt_iff, and_assoc,
    exists_eq_left] at h
  obtain ⟨a, ha, b, hb, c, hc, h⟩ := h
  obtain ⟨voices, turned⟩ :=
    drafts.invoked (j := Token.close a b c) tokens (fun _ => Token.turns_close) h
  exact ⟨a, b, c, ha, hb, hc, voices ⟨c, true, false⟩ (by simp [Token.close]) rfl, turned⟩

theorem minted (drafts : scene.Drafts l layout i now)
    (tokens : l.natives Token.program = some Token.native)
    (h : Returns Ledger.host f scene
      (Token.Call.mintTo mint holding authority amount seeds) u last) :
    ∃ a b c, i.key? mint = some a ∧ i.key? holding = some b ∧ i.key? authority = some c ∧
      ∃ now', Token.Mints now a b c amount now' ∧ last.Drafts l layout i now' := by
  simp only [Token.Call.mintTo, Logic.returns_bind_iff, drafts.returns_keyAt_iff, and_assoc,
    exists_eq_left] at h
  obtain ⟨a, ha, b, hb, c, hc, h⟩ := h
  obtain ⟨_, turned⟩ :=
    drafts.invoked (j := Token.mintTo a b c amount) tokens (fun _ => Token.turns_mintTo) h
  exact ⟨a, b, c, ha, hb, hc, turned⟩

theorem burnt (drafts : scene.Drafts l layout i now)
    (tokens : l.natives Token.program = some Token.native)
    (h : Returns Ledger.host f scene
      (Token.Call.burn holding mint authority amount seeds) u last) :
    ∃ a b c, i.key? holding = some a ∧ i.key? mint = some b ∧ i.key? authority = some c ∧
      i.Voices f.program seeds c ∧
        ∃ now', Token.Burns now a b c amount now' ∧ last.Drafts l layout i now' := by
  simp only [Token.Call.burn, Logic.returns_bind_iff, drafts.returns_keyAt_iff, and_assoc,
    exists_eq_left] at h
  obtain ⟨a, ha, b, hb, c, hc, h⟩ := h
  obtain ⟨voices, turned⟩ :=
    drafts.invoked (j := Token.burn a b c amount) tokens (fun _ => Token.turns_burn) h
  exact ⟨a, b, c, ha, hb, hc, voices ⟨c, true, false⟩ (by simp [Token.burn]) rfl, turned⟩

theorem handedOn (drafts : scene.Drafts l layout i now)
    (tokens : l.natives Token.program = some Token.native)
    (h : Returns Ledger.host f scene
      (Token.Call.setAuthority target authority successor kind seeds) u last) :
    ∃ a b, i.key? target = some a ∧ i.key? authority = some b ∧
      ∃ now', Token.HandsOver now a b kind successor now' ∧ last.Drafts l layout i now' := by
  simp only [Token.Call.setAuthority, Logic.returns_bind_iff, drafts.returns_keyAt_iff, and_assoc,
    exists_eq_left] at h
  obtain ⟨a, ha, b, hb, h⟩ := h
  obtain ⟨_, turned⟩ :=
    drafts.invoked (j := Token.setAuthority a b kind successor) tokens
      (fun _ => Token.turns_setAuthority) h
  exact ⟨a, b, ha, hb, turned⟩

theorem opened (drafts : scene.Drafts l layout i now)
    (tokens : l.natives Token.program = some Token.native)
    (h : Returns Ledger.host f scene
      (Token.Call.openHolding payer holding mint owner seeds) u last) :
    ∃ a b c rent, i.key? payer = some a ∧ i.key? holding = some b ∧ i.key? mint = some c ∧
      Rent.minimum Token.Holding.size = .ok rent ∧ (now.read b).isVacant = true ∧
        rent ≤ (now.read a).lamports ∧ a ≠ b ∧
        last.Drafts l layout i (Token.opened now a b c owner rent) := by
  simp only [Token.Call.openHolding, Logic.returns_bind_iff, drafts.returns_keyAt_iff,
    Logic.returns_minimumBalance_iff, and_assoc, exists_eq_left] at h
  obtain ⟨a, ha, b, hb, c, hc, rent, hrent, _, mid, hmake, hopen⟩ := h
  have hrent : Rent.minimum Token.Holding.size = .ok rent := hrent
  have hpaid := Rent.ne_zero (by decide) hrent
  obtain ⟨_, _, ⟨hvacant, hle, hne, rfl⟩, drafts⟩ :=
    drafts.invoked rfl (fun _ => SystemProgram.turns_createAccount hpaid) hmake
  obtain ⟨_, _, ⟨_, _, _, _, rfl⟩, drafts⟩ :=
    drafts.invoked (j := Token.openHolding b c owner) tokens (fun _ => Token.turns_openHolding) hopen
  refine ⟨a, b, c, rent, ha, hb, hc, hrent, hvacant, hle, hne, ?_⟩
  have hdata : ((now.made a b rent Token.Holding.size Token.program).read b).data =
      List.replicate Token.Holding.size 0 := by
    rw [Store.read_made, if_pos rfl]
  have hsize : (UInt64.ofNat Token.Holding.size).toNat = Token.Holding.size := rfl
  rw [hsize, hdata, List.drop_of_length_le (by simp), List.append_nil] at drafts
  exact drafts

theorem setApart (drafts : scene.Drafts l layout i now)
    (associated : l.natives Token.Associated.program = some Token.Associated.native)
    {idempotent : Bool} (h : Returns Ledger.host f scene
      (Token.Call.openAssociated payer holding wallet mint idempotent seeds) u last) :
    ∃ a b c d now', i.key? payer = some a ∧ i.key? holding = some b ∧ i.key? wallet = some c ∧
      i.key? mint = some d ∧ Token.Associated.address c d = .ok b ∧
        Token.Associated.Opened now a b c d now' ∧ last.Drafts l layout i now' := by
  simp only [Token.Call.openAssociated, Logic.returns_bind_iff, drafts.returns_keyAt_iff, and_assoc,
    exists_eq_left] at h
  obtain ⟨a, ha, c, hc, d, hd, expected, mid, hsearch, h⟩ := h
  obtain ⟨rfl, haddress⟩ : mid = scene ∧ Token.Associated.address c d = .ok expected := by
    cases hfound : Token.Associated.address c d with
    | error crash =>
      rw [hfound] at hsearch
      exact absurd hsearch Logic.not_returns_crash
    | ok found =>
      rw [hfound] at hsearch
      obtain ⟨rfl, rfl⟩ := Logic.returns_done_iff.1 hsearch
      exact ⟨rfl, rfl⟩
  simp only [drafts.returns_keyAt_iff, Logic.returns_requireEq_iff, and_assoc, exists_eq_left] at h
  obtain ⟨b, hb, _, rfl, h⟩ := h
  obtain ⟨_, now', hnow', drafts⟩ := drafts.invoked
    (j := Token.Associated.create a b c d idempotent) associated
      (fun _ => Token.Associated.turns_create) h
  exact ⟨a, b, c, d, now', ha, hb, hc, hd, haddress, hnow', drafts⟩

end

/-! ## making a record -/

theorem made (drafts : scene.Drafts l layout i l.store) (shown : scene.table.Shows l.store)
    (clean : scene.table.Clean) {payer target : String} {space : Nat} {owner : Key}
    (small : (Rent.overhead + space) * Rent.perByteYear < Rent.exactLimit)
    (h : Returns Ledger.host f scene (Logic.create payer target space owner none) u last) :
    ∃ a b rent position, layout.keyOf? i payer = some a ∧ layout.keyOf? i target = some b ∧
      layout.position? target = some position ∧ i.key? position = some b ∧
      Rent.minimum space = .ok rent ∧ (l.store.read b).isVacant = true ∧
      rent ≤ (l.store.read a).lamports ∧ a ≠ b ∧
        last.Drafts l layout i (l.store.made a b rent space owner) ∧
        last.table.Sole (l.store.made a b rent space owner) position := by
  simp only [Logic.create, Logic.returns_bind_iff, Logic.returns_positionOf_iff,
    Logic.returns_minimumBalance_iff, drafts.seated.positionOf_eq_ok_iff, and_assoc,
    exists_eq_left] at h
  obtain ⟨source, hfrom, place, hto, rent, hrent, hmake⟩ := h
  have hrent : Rent.minimum space = .ok rent := hrent
  have hpaid := Rent.ne_zero small hrent
  have hrun := Logic.returns_perform_iff.1 hmake
  simp only [Op.run] at hrun
  rcases Table.create_cases scene.table source place space owner none rent with
    ⟨e, hc⟩ | ⟨bySeeds, funder, fresh, may, ⟨_, hc⟩ | hc⟩
  · rw [hc] at hrun
    cases hrun
  · rw [hc] at hrun
    obtain ⟨_, rfl⟩ := Prod.mk.inj hrun
    have hfunder := shown funder (List.mem_of_getElem? may.funder_at)
    have hfresh := shown fresh (List.mem_of_getElem? may.fresh_at)
    obtain ⟨mirrors, alone⟩ := Table.Mirrors.created space owner shown clean may hpaid
    have ha : i.key? source = some funder.key := drafts.seated.keyAt_iff.1 ⟨_, may.funder_at, rfl⟩
    have hb : i.key? place = some fresh.key := drafts.seated.keyAt_iff.1 ⟨_, may.fresh_at, rfl⟩
    refine ⟨funder.key, fresh.key, rent, place, ?_, ?_, hto, hb, hrent, ?_, ?_,
      may.key_ne shown hpaid, ⟨hmake.seated drafts.seated, mirrors, drafts.natives,
        hmake.marked (by simp) drafts.marked⟩, ?_⟩
    · rw [Layout.keyOf?_eq hfrom, ha]
    · rw [Layout.keyOf?_eq hto, hb]
    · rw [← hfresh]
      exact may.vacant
    · rw [← hfunder]
      exact may.funds
    · have here : (scene.table.created source place rent funder
          ((Table.funded bySeeds rent fresh).allocate space owner)).handles[place]? =
            some ((Table.funded bySeeds rent fresh).allocate space owner) := by
        refine List.getElem?_set_self ?_
        rw [Table.handles_put, List.length_set]
        exact (List.getElem?_eq_some_iff.1 may.fresh_at).1
      refine ⟨_, here, mirrors.touched _ (List.mem_of_getElem? here) ?_, ?_⟩
      · simp [Handle.isDirty, Handle.allocate, Dirty.any]
      · intro other g hg hd hk
        exact alone other g hg hd (hk.trans (Handle.key_moveLamports _ _))
  · rw [hc] at hrun
    cases hrun

/-- A record that was put into a position, where no other one of its key is touched. -/
theorem saved (drafts : scene.Drafts l layout i now) {α : Type} [Record α] {name : String} {a : α}
    {position : Nat} {key : Key} (named : layout.position? name = some position)
    (here : i.key? position = some key) (sole : scene.table.Sole now position)
    (h : Returns Ledger.host f scene (Logic.saveRecord name a) u last) :
    8 + (Record.codec.write a).length ≤ (now.read key).data.length ∧
      last.Drafts l layout i (now.putData key
        ((Record.tag α).image (Record.codec.write a) (now.read key).data.length)) := by
  simp only [Logic.saveRecord, Logic.returns_bind_iff, Logic.returns_positionOf_iff,
    drafts.seated.positionOf_eq_ok_iff, named, Option.some.injEq, and_assoc, exists_eq_left] at h
  obtain ⟨_, rfl, hsave⟩ := h
  have hrun := Logic.returns_perform_iff.1 hsave
  simp only [Op.run, Op.onTable] at hrun
  split at hrun
  · rename_i table hput
    obtain ⟨_, rfl⟩ := Prod.mk.inj hrun
    obtain ⟨h, h', hh, saved, rfl⟩ := Table.update_eq_ok_iff.1 hput
    obtain ⟨_, heq, shows, alone⟩ := sole
    rw [hh] at heq
    cases heq
    have hkey : h.key = key := by
      have := drafts.seated.keyAt_iff.1 ⟨h, hh, rfl⟩
      rw [← Instruction.key?, here] at this
      exact (Option.some.inj this).symm
    have mirrors := drafts.mirrors.saved hh shows alone saved
    rw [hkey] at shows
    rw [hkey, shows] at mirrors
    obtain ⟨_, _, _, _, hroom, _⟩ := Handle.save_eq_ok_iff.1 saved
    exact ⟨shows ▸ hroom, hsave.seated drafts.seated, mirrors, drafts.natives,
      hsave.marked (by simp) drafts.marked⟩
  · cases hrun

/-- A record that was put into an account that was just made for it. -/
theorem filled {s : Store} {payer target owner : Key} {rent : Amount} {space position : Nat}
    (drafts : scene.Drafts l layout i (s.made payer target rent space owner)) {α : Type} [Record α]
    {name : String} {a : α} (named : layout.position? name = some position)
    (here : i.key? position = some target)
    (sole : scene.table.Sole (s.made payer target rent space owner) position)
    (h : Returns Ledger.host f scene (Logic.saveRecord name a) u last) :
    last.Drafts l layout i ((s.made payer target rent space owner).putData target
      ((Record.tag α).image (Record.codec.write a) space)) := by
  obtain ⟨_, drafts⟩ := drafts.saved named here sole h
  have hspace : ((s.made payer target rent space owner).read target).data.length = space := by
    rw [Store.read_made, if_pos rfl]
    exact List.length_replicate
  rw [hspace] at drafts
  exact drafts

end Scene.Drafts

end AccountLedger

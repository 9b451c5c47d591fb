import RecoveryService.Lib.Checks
import RecoveryService.Lib.Runs
import RecoveryService.Lib.Text

/-! # The folders of the data platform

`create_folder`, `update_folder` and `archive_folder` of `services/data_platform.py`.  The links to the
parents never close a cycle, and a move is refused exactly where it would close one or where its target is
not active.  `update_folder` writes any status, though: `folders_iff` says which runs keep the parents of
active folders active. -/

namespace RecoveryService.DataPlatformFolders

open Checks Runs

inductive Status
  | active
  | archived
deriving DecidableEq

/-- `DataPlatformFolder`. -/
structure Folder where
  id : ℕ
  name : String
  parentId : Option ℕ
  status : Status := .active

/-- The table of the folders, with its primary key. -/
structure Folders where
  rows : List Folder
  keys : (rows.map Folder.id).Nodup

namespace Folders

def empty : Folders := ⟨[], List.nodup_nil⟩

variable (s : Folders)

/-- `session.get`. -/
def get (id : ℕ) : Option Folder := s.rows.find? fun f => f.id = id

/-- A folder that is not archived. -/
def activeFolder (id : ℕ) : Option Folder := (s.get id).filter fun f => f.status ≠ .archived

/-- `session.add` of a row with a free key. -/
def add (f : Folder) (h : f.id ∉ s.rows.map Folder.id) : Folders where
  rows := f :: s.rows
  keys := List.nodup_cons.mpr ⟨h, s.keys⟩

theorem map_replace_id (f : Folder) :
    (s.rows.map fun g => if g.id = f.id then f else g).map Folder.id = s.rows.map Folder.id := by
  rw [List.map_map]
  apply List.map_congr_left
  intro g _
  rw [Function.comp_apply]
  split_ifs with h
  · exact h.symm
  · rfl

/-- The row with the key of `f` is written. -/
def replace (f : Folder) : Folders where
  rows := s.rows.map fun g => if g.id = f.id then f else g
  keys := by
    rw [map_replace_id]
    exact s.keys

end Folders

/-! ### Operations -/

/-- The check of the parent of a new folder. -/
def checkParent (s : Folders) : Option ℕ → Except String Unit
  | none => .ok ()
  | some parentId => raiseIf (s.activeFolder parentId = none) "Parent folder does not exist."

/-- `create_folder`; `id` is the `uuid4`. -/
def createFolder (id : ℕ) (name : String) (parentId : Option ℕ) (s : Folders) : Except String Folders := do
  let cleanName := Text.strip name
  raiseIf (cleanName = "") "Folder name is required."
  checkParent s parentId
  if h : id ∈ s.rows.map Folder.id then .error "IntegrityError"
  else return s.add ⟨id, cleanName, parentId, .active⟩ h

/-- The keys of `updates`: a missing name or status is like `None`, a missing parent is not. -/
structure Updates where
  name : Option String := none
  parentId : Option (Option ℕ) := none
  status : Option Status := none
deriving DecidableEq

/-- The walk to the ancestors of `cursor`: whether it comes to `id`. -/
def walk (s : Folders) (id : ℕ) : ℕ → List ℕ → Option Folder → Bool
  | 0, _, _ => false
  | _ + 1, _, none => false
  | n + 1, visited, some cursor =>
      if cursor.id ∈ visited then false
      else if cursor.id = id then true
      else walk s id n (cursor.id :: visited) (cursor.parentId.bind s.get)

/-- The checks of a move. -/
def checkMove (s : Folders) (id : ℕ) : Option (Option ℕ) → Except String Unit
  | none => .ok ()
  | some none => .ok ()
  | some (some parentId) => do
      raiseIf (parentId = id) "A folder cannot be moved into itself."
      match s.activeFolder parentId with
      | none => .error "Target folder does not exist."
      | some parent =>
          raiseIf (walk s id (s.rows.length + 1) [] (some parent) = true)
            "A folder cannot be moved into its descendant."

/-- The folder behind the updates. -/
def Updates.apply (u : Updates) (f : Folder) : Folder where
  id := f.id
  name := (u.name.map Text.strip).getD f.name
  parentId := u.parentId.getD f.parentId
  status := u.status.getD f.status

/-- `update_folder`. -/
def updateFolder (id : ℕ) (u : Updates) (s : Folders) : Except String Folders :=
  match s.get id with
  | none => .error "Folder does not exist."
  | some folder => do
      raiseIf (u.name.map Text.strip = some "") "Folder name is required."
      checkMove s id u.parentId
      return s.replace (u.apply folder)

/-- `archive_folder`; `workflows` says whether a workflow of the folder is not archived. -/
def archiveFolder (id : ℕ) (workflows : Bool) (s : Folders) : Except String Folders :=
  match s.activeFolder id with
  | none => .error "Folder does not exist."
  | some folder => do
      raiseIf ((∃ f ∈ s.rows, f.parentId = some id ∧ f.status ≠ .archived) ∨ workflows = true)
        "Folder is not empty. Move or delete its subfolders and tasks first."
      return s.replace { folder with status := .archived }

inductive Action
  | create (id : ℕ) (name : String) (parentId : Option ℕ)
  | update (id : ℕ) (updates : Updates)
  | archive (id : ℕ) (workflows : Bool)
deriving DecidableEq

def perform : Action → Folders → Except String Folders
  | .create id name parentId => createFolder id name parentId
  | .update id updates => updateFolder id updates
  | .archive id workflows => archiveFolder id workflows

/-- A request; one that is refused changes nothing. -/
def step (s : Folders) (a : Action) : Option Folders :=
  match perform a s with
  | .ok s' => some s'
  | .error _ => some s

/-! ### Rows -/

variable {s : Folders} {id : ℕ} {f g : Folder}

namespace Folders

theorem get_mem (h : s.get id = some f) : f ∈ s.rows ∧ f.id = id := by
  unfold get at h
  have hfound := List.find?_some h
  exact ⟨List.mem_of_find?_eq_some h, of_decide_eq_true hfound⟩

theorem get_of_mem (h : f ∈ s.rows) : s.get f.id = some f := by
  cases hget : s.get f.id with
  | none => exact absurd (decide_eq_true rfl) (List.find?_eq_none.mp hget f h)
  | some g =>
      obtain ⟨hg, hid⟩ := get_mem hget
      rw [List.inj_on_of_nodup_map s.keys hg h hid]

theorem get_eq_some : s.get id = some f ↔ f ∈ s.rows ∧ f.id = id := by
  constructor
  · exact get_mem
  · rintro ⟨h, rfl⟩
    exact get_of_mem h

theorem mem_replace (hf : s.get f.id = some g) {h : Folder} :
    h ∈ (s.replace f).rows ↔ h = f ∨ h ∈ s.rows ∧ h.id ≠ f.id := by
  obtain ⟨hg, hid⟩ := get_mem hf
  show h ∈ List.map _ _ ↔ _
  rw [List.mem_map]
  constructor
  · rintro ⟨k, hk, rfl⟩
    split_ifs with heq
    · exact Or.inl rfl
    · exact Or.inr ⟨hk, heq⟩
  · rintro (rfl | ⟨hk, hne⟩)
    · exact ⟨g, hg, if_pos hid⟩
    · exact ⟨h, hk, if_neg hne⟩

theorem activeFolder_eq_some : s.activeFolder id = some f ↔ s.get id = some f ∧ f.status = .active := by
  unfold activeFolder
  rw [Option.filter_eq_some_iff, decide_eq_true_eq]
  refine and_congr_right' ?_
  cases f.status <;> simp

end Folders

/-! ### Parents -/

/-- The folder `a` has the parent `b`. -/
def Link (s : Folders) (a b : ℕ) : Prop := ∃ f, s.get a = some f ∧ f.parentId = some b

/-- `b` is above `a`, and `a` a descendant of `b`. -/
def Below (s : Folders) (a b : ℕ) : Prop := Relation.TransGen (Link s) a b

/-- No folder is below itself. -/
def Acyclic (s : Folders) : Prop := ∀ a, ¬ Below s a a

theorem link_iff {a b : ℕ} (hf : s.get a = some f) : Link s a b ↔ f.parentId = some b := by
  constructor
  · rintro ⟨g, hg, hparent⟩
    rw [hf, Option.some.injEq] at hg
    rwa [hg]
  · exact fun h => ⟨f, hf, h⟩

/-- The walk only comes to what is above. -/
theorem walk_below {n : ℕ} {visited : List ℕ} {cursor : Folder} (hcursor : s.get cursor.id = some cursor)
    (h : walk s id n visited (some cursor) = true) : Relation.ReflTransGen (Link s) cursor.id id := by
  induction n generalizing visited cursor with
  | zero => cases h
  | succ n ih =>
      rw [walk] at h
      split_ifs at h with hvisited hfound
      · rw [hfound]
      · cases hparent : cursor.parentId with
        | none =>
            rw [hparent, Option.bind_none] at h
            cases n <;> cases h
        | some parent =>
            rw [hparent, Option.bind_some] at h
            cases hget : s.get parent with
            | none =>
                rw [hget] at h
                cases n <;> cases h
            | some next =>
                rw [hget] at h
                have hid := (Folders.get_mem hget).2
                have hrest := ih (by rw [hid]; exact hget) h
                rw [hid] at hrest
                exact Relation.ReflTransGen.head ((link_iff hcursor).mpr hparent) hrest

/-- Without cycles, the walk comes to everything that is above: what it has visited is below the cursor,
so it never stops early. -/
theorem walk_of_below (hacyclic : Acyclic s) (hid : (s.get id).isSome) {n : ℕ} {visited : List ℕ}
    {cursor : Folder} (hcursor : s.get cursor.id = some cursor) (hnodup : visited.Nodup)
    (hvisited : ∀ v ∈ visited, v ∈ s.rows.map Folder.id ∧ Below s v cursor.id)
    (hlength : s.rows.length < n + visited.length)
    (h : Relation.ReflTransGen (Link s) cursor.id id) : walk s id n visited (some cursor) = true := by
  induction n generalizing visited cursor with
  | zero =>
      have hle := (List.Nodup.subperm hnodup fun v hv => (hvisited v hv).1).length_le
      rw [List.length_map] at hle
      omega
  | succ n ih =>
      have hnew : cursor.id ∉ visited := fun hmem => hacyclic cursor.id (hvisited _ hmem).2
      rw [walk, if_neg hnew]
      split_ifs with hfound
      · rfl
      · rcases Relation.ReflTransGen.cases_head h with heq | ⟨parent, hlink, hrest⟩
        · exact absurd heq hfound
        · have hparent := (link_iff hcursor).mp hlink
          have hexists : ∃ next, s.get parent = some next := by
            rcases Relation.ReflTransGen.cases_head hrest with heq | ⟨_, ⟨next, hnext, -⟩, -⟩
            · rw [heq]
              exact Option.isSome_iff_exists.mp hid
            · exact ⟨next, hnext⟩
          obtain ⟨next, hnext⟩ := hexists
          have hnextId := (Folders.get_mem hnext).2
          rw [hparent, Option.bind_some, hnext]
          rw [← hnextId] at hlink hrest hnext
          have hmem := (Folders.get_mem hcursor).1
          refine ih hnext (List.nodup_cons.mpr ⟨hnew, hnodup⟩) ?_ ?_ hrest
          · intro v hv
            rcases List.mem_cons.mp hv with rfl | hv
            · exact ⟨List.mem_map_of_mem hmem, Relation.TransGen.single hlink⟩
            · exact ⟨(hvisited v hv).1, (hvisited v hv).2.tail hlink⟩
          · rw [List.length_cons]
            omega

theorem walk_iff (hacyclic : Acyclic s) (hid : (s.get id).isSome) (hf : s.get f.id = some f) :
    walk s id (s.rows.length + 1) [] (some f) = true ↔ f.id = id ∨ Below s f.id id := by
  have hpath : f.id = id ∨ Below s f.id id ↔ Relation.ReflTransGen (Link s) f.id id := by
    rw [Relation.reflTransGen_iff_eq_or_transGen]
    exact or_congr_left eq_comm
  rw [hpath]
  constructor
  · exact walk_below hf
  · refine walk_of_below hacyclic hid hf List.nodup_nil nofun ?_
    rw [List.length_nil, Nat.add_zero]
    exact Nat.lt_succ_self _

/-! ### The links stay without cycles -/

theorem get_replace (hf : s.get f.id = some g) (a : ℕ) :
    (s.replace f).get a = if a = f.id then some f else s.get a := by
  have hmem := fun h => Folders.mem_replace (h := h) hf
  split_ifs with ha
  · rw [ha]
    exact Folders.get_of_mem ((hmem f).mpr (Or.inl rfl))
  · ext h
    rw [Folders.get_eq_some, Folders.get_eq_some, hmem]
    constructor
    · rintro ⟨rfl | ⟨hh, -⟩, rfl⟩
      · exact absurd rfl ha
      · exact ⟨hh, rfl⟩
    · rintro ⟨hh, rfl⟩
      exact ⟨Or.inr ⟨hh, ha⟩, rfl⟩

theorem get_add (h : f.id ∉ s.rows.map Folder.id) (a : ℕ) :
    (s.add f h).get a = if a = f.id then some f else s.get a := by
  show List.find? _ (f :: s.rows) = _
  rw [List.find?_cons]
  by_cases ha : a = f.id
  · rw [if_pos ha, decide_eq_true ha.symm]
  · rw [if_neg ha, decide_eq_false (Ne.symm ha)]
    rfl

/-- A changed link of one folder closes no cycle unless its parent is the folder or below it. -/
theorem acyclic_of_link {t : Folders} {a : ℕ} (hacyclic : Acyclic s)
    (hother : ∀ b c, b ≠ a → Link t b c → Link s b c)
    (hparent : ∀ b, Link t a b → b ≠ a ∧ ¬ Below s b a) : Acyclic t := by
  -- a path of the new links is one of the old links, or it comes through `a`
  have hpath : ∀ b c, Below t b c → Below s b c ∨
      Relation.ReflTransGen (Link t) b a ∧ Relation.ReflTransGen (Link t) a c := by
    intro b c h
    induction h with
    | single hlink =>
        by_cases hb : b = a
        · rw [hb] at hlink ⊢
          exact Or.inr ⟨Relation.ReflTransGen.refl, Relation.ReflTransGen.single hlink⟩
        · exact Or.inl (Relation.TransGen.single (hother _ _ hb hlink))
    | tail hbc hlink ih =>
        rename_i d e
        rcases ih with hold | ⟨hto, hback⟩
        · by_cases hd : d = a
          · rw [hd] at hbc hlink
            exact Or.inr ⟨hbc.to_reflTransGen, Relation.ReflTransGen.single hlink⟩
          · exact Or.inl (hold.tail (hother _ _ hd hlink))
        · exact Or.inr ⟨hto, hback.tail hlink⟩
  -- and one that comes to `a` has an old part up to the first `a`
  have hfirst : ∀ b, Relation.ReflTransGen (Link t) b a → Relation.ReflTransGen (Link s) b a := by
    intro b h
    induction h using Relation.ReflTransGen.head_induction_on with
    | refl => exact Relation.ReflTransGen.refl
    | head hlink _ ih =>
        rename_i c d _
        by_cases hc : c = a
        · rw [hc]
        · exact Relation.ReflTransGen.head (hother _ _ hc hlink) ih
  have hself : ¬ Below t a a := by
    intro h
    obtain ⟨b, hlink, hrest⟩ := Relation.TransGen.head'_iff.mp h
    obtain ⟨hne, hbelow⟩ := hparent b hlink
    rcases Relation.reflTransGen_iff_eq_or_transGen.mp (hfirst b hrest) with heq | hold
    · exact hne heq.symm
    · exact hbelow hold
  intro b h
  rcases hpath b b h with hold | ⟨hto, hback⟩
  · exact hacyclic b hold
  · rcases Relation.reflTransGen_iff_eq_or_transGen.mp hto with heq | hto
    · rw [heq] at hself
      exact hself h
    · exact hself (hto.trans_right hback)

/-! ### Accepted requests -/

variable {s' : Folders}

theorem createFolder_ok {name : String} {parentId : Option ℕ} (h : createFolder id name parentId s = .ok s') :
    ∃ hid : id ∉ s.rows.map Folder.id, s' = s.add ⟨id, Text.strip name, parentId, .active⟩ hid ∧
      ∀ p, parentId = some p → ∃ g, s.activeFolder p = some g := by
  unfold createFolder at h
  simp only at h
  obtain ⟨_, -, h⟩ := bind_eq_ok.mp h
  obtain ⟨_, hcheck, h⟩ := bind_eq_ok.mp h
  split_ifs at h with hid
  cases h
  refine ⟨hid, rfl, ?_⟩
  rintro p rfl
  exact Option.ne_none_iff_exists'.mp (raiseIf_eq_ok.mp hcheck)

/-- What `s` has always. -/
structure Sound (s : Folders) : Prop where
  acyclic : Acyclic s
  parents : ∀ a b, Link s a b → (s.get b).isSome

theorem Sound.below_isSome (h : Sound s) {a b : ℕ} (hbelow : Below s a b) : (s.get b).isSome := by
  obtain ⟨c, -, hlink⟩ := Relation.TransGen.tail'_iff.mp hbelow
  exact h.parents c b hlink

/-- A move is accepted exactly to an active folder that is not the folder and not below it. -/
theorem checkMove_ok (hs : Acyclic s) (hid : (s.get id).isSome) {parentId : ℕ} :
    checkMove s id (some (some parentId)) = .ok () ↔
      ¬ (parentId = id ∨ Below s parentId id ∨ s.activeFolder parentId = none) := by
  have hgoal : checkMove s id (some (some parentId)) = .ok () ↔ parentId ≠ id ∧
      ∃ parent, s.activeFolder parentId = some parent ∧
        ¬ walk s id (s.rows.length + 1) [] (some parent) = true := by
    show (raiseIf _ _ >>= fun _ => _) = _ ↔ _
    rw [bind_eq_ok]
    cases s.activeFolder parentId with
    | none | some parent => simp
  rw [hgoal, not_or, not_or]
  refine and_congr_right fun hne => ?_
  have hwalk : ∀ parent, s.activeFolder parentId = some parent →
      (¬ walk s id (s.rows.length + 1) [] (some parent) = true ↔ ¬ Below s parentId id) := by
    intro parent hparent
    obtain ⟨hget, -⟩ := Folders.activeFolder_eq_some.mp hparent
    have hpid := (Folders.get_mem hget).2
    rw [← hpid] at hget
    rw [walk_iff hs hid hget, not_or, hpid]
    exact and_iff_right hne
  constructor
  · rintro ⟨parent, hparent, hnot⟩
    exact ⟨(hwalk parent hparent).mp hnot, Option.ne_none_iff_exists'.mpr ⟨parent, hparent⟩⟩
  · rintro ⟨hbelow, hactive⟩
    obtain ⟨parent, hparent⟩ := Option.ne_none_iff_exists'.mp hactive
    exact ⟨parent, hparent, (hwalk parent hparent).mpr hbelow⟩

theorem updateFolder_ok {u : Updates} (h : updateFolder id u s = .ok s') :
    ∃ folder, s.get id = some folder ∧ checkMove s id u.parentId = .ok () ∧
      s' = s.replace (u.apply folder) := by
  unfold updateFolder at h
  cases hget : s.get id with
  | none =>
      rw [hget] at h
      cases h
  | some folder =>
      rw [hget] at h
      obtain ⟨_, -, h⟩ := bind_eq_ok.mp h
      obtain ⟨_, hmove, h⟩ := bind_eq_ok.mp h
      cases h
      exact ⟨folder, rfl, hmove, rfl⟩

theorem archiveFolder_ok {workflows : Bool} (h : archiveFolder id workflows s = .ok s') :
    ∃ folder, s.activeFolder id = some folder ∧
      (∀ f ∈ s.rows, f.parentId = some id → f.status = .archived) ∧
      s' = s.replace { folder with status := .archived } := by
  unfold archiveFolder at h
  cases hget : s.activeFolder id with
  | none =>
      rw [hget] at h
      cases h
  | some folder =>
      rw [hget] at h
      obtain ⟨_, hempty, h⟩ := bind_eq_ok.mp h
      cases h
      refine ⟨folder, rfl, fun f hf hparent => ?_, rfl⟩
      by_contra hstatus
      exact raiseIf_eq_ok.mp hempty (Or.inl ⟨f, hf, hparent, hstatus⟩)

/-! ### What every request keeps -/

theorem sound_empty : Sound Folders.empty where
  acyclic a h := by
    obtain ⟨b, ⟨f, hf, -⟩, -⟩ := Relation.TransGen.head'_iff.mp h
    cases hf
  parents a b h := by
    obtain ⟨f, hf, -⟩ := h
    cases hf

theorem activeFolder_isSome {p : ℕ} :
    (s.activeFolder p).isSome ↔ ∃ f, s.get p = some f ∧ f.status = .active := by
  rw [Option.isSome_iff_exists]
  exact exists_congr fun f => Folders.activeFolder_eq_some

/-- The folder `g` is written as `f`: a new parent is active, and neither the folder nor below it. -/
def Moved (s : Folders) (g f : Folder) : Prop :=
  f.parentId = g.parentId ∨
    ∀ p, f.parentId = some p → p ≠ f.id ∧ ¬ Below s p f.id ∧ (s.activeFolder p).isSome

/-- The parent of a written folder is there, and neither the folder nor below it. -/
theorem Moved.parent (h : Moved s g f) (hs : Sound s) (hf : s.get f.id = some g) {p : ℕ}
    (hp : f.parentId = some p) : p ≠ f.id ∧ ¬ Below s p f.id ∧ (s.get p).isSome := by
  rcases h with hsame | hmoved
  · have hlink : Link s f.id p := ⟨g, hf, hsame ▸ hp⟩
    refine ⟨?_, ?_, hs.parents _ _ hlink⟩
    · intro heq
      rw [heq] at hlink
      exact hs.acyclic _ (Relation.TransGen.single hlink)
    · intro hbelow
      exact hs.acyclic _ (Relation.TransGen.head hlink hbelow)
  · obtain ⟨hne, hbelow, hactive⟩ := hmoved p hp
    obtain ⟨k, hk, -⟩ := activeFolder_isSome.mp hactive
    exact ⟨hne, hbelow, Option.isSome_iff_exists.mpr ⟨k, hk⟩⟩

theorem moved_apply {u : Updates} (hs : Acyclic s) (hget : s.get g.id = some g)
    (hmove : checkMove s g.id u.parentId = .ok ()) : Moved s g (u.apply g) := by
  cases hparent : u.parentId with
  | none => exact Or.inl (by rw [Updates.apply, hparent]; rfl)
  | some parent =>
      refine Or.inr fun p hp => ?_
      rw [Updates.apply, hparent, Option.getD_some] at hp
      rw [hparent, show parent = some p from hp, checkMove_ok hs (by rw [hget]; rfl), not_or,
        not_or] at hmove
      exact ⟨hmove.1, hmove.2.1, Option.isSome_iff_ne_none.mpr hmove.2.2⟩

theorem sound_replace (hs : Sound s) (hf : s.get f.id = some g) (hmoved : Moved s g f) :
    Sound (s.replace f) := by
  have hother : ∀ b c, b ≠ f.id → Link (s.replace f) b c → Link s b c := by
    rintro b c hb ⟨h, hh, hc⟩
    rw [get_replace hf, if_neg hb] at hh
    exact ⟨h, hh, hc⟩
  have hself : ∀ c, Link (s.replace f) f.id c → f.parentId = some c := by
    rintro c ⟨h, hh, hc⟩
    rw [get_replace hf, if_pos rfl, Option.some.injEq] at hh
    rwa [← hh] at hc
  have hnew := fun c hc => hmoved.parent hs hf (p := c) hc
  refine ⟨acyclic_of_link hs.acyclic hother fun c hc => ?_, fun b c hlink => ?_⟩
  · have hchecked := hnew c (hself c hc)
    exact ⟨hchecked.1, hchecked.2.1⟩
  · rw [get_replace hf]
    split_ifs with hc
    · rfl
    · by_cases hb : b = f.id
      · rw [hb] at hlink
        exact (hnew c (hself c hlink)).2.2
      · exact hs.parents b c (hother b c hb hlink)

theorem sound_add (hs : Sound s) (hid : f.id ∉ s.rows.map Folder.id)
    (hparent : ∀ p, f.parentId = some p → (s.get p).isSome) : Sound (s.add f hid) := by
  have hnone : s.get f.id = none := by
    cases hget : s.get f.id with
    | none => rfl
    | some g =>
        obtain ⟨hg, hgid⟩ := Folders.get_mem hget
        exact absurd (hgid ▸ List.mem_map_of_mem hg) hid
  have hother : ∀ b c, b ≠ f.id → Link (s.add f hid) b c → Link s b c := by
    rintro b c hb ⟨h, hh, hc⟩
    rw [get_add, if_neg hb] at hh
    exact ⟨h, hh, hc⟩
  have hself : ∀ c, Link (s.add f hid) f.id c → (s.get c).isSome := by
    rintro c ⟨h, hh, hc⟩
    rw [get_add, if_pos rfl, Option.some.injEq] at hh
    exact hparent c (hh ▸ hc)
  refine ⟨acyclic_of_link hs.acyclic hother fun c hc => ⟨?_, ?_⟩, fun b c hlink => ?_⟩
  · intro heq
    have hsome := hself c hc
    rw [heq, hnone] at hsome
    cases hsome
  · intro hbelow
    have hsome := hs.below_isSome hbelow
    rw [hnone] at hsome
    cases hsome
  · rw [get_add]
    split_ifs with hc
    · rfl
    · by_cases hb : b = f.id
      · rw [hb] at hlink
        exact hself c hlink
      · exact hs.parents b c (hother b c hb hlink)

theorem sound_step (hs : Sound s) {a : Action} (h : perform a s = .ok s') : Sound s' := by
  cases a with
  | create id name parentId =>
      obtain ⟨hid, rfl, hparent⟩ := createFolder_ok h
      refine sound_add hs hid fun p hp => ?_
      obtain ⟨g, hg⟩ := hparent p hp
      exact Option.isSome_iff_exists.mpr ⟨g, (Folders.activeFolder_eq_some.mp hg).1⟩
  | update id u =>
      obtain ⟨folder, hget, hmove, rfl⟩ := updateFolder_ok h
      obtain rfl := (Folders.get_mem hget).2
      exact sound_replace (g := folder) hs hget (moved_apply hs.acyclic hget hmove)
  | archive id workflows =>
      obtain ⟨folder, hfolder, -, rfl⟩ := archiveFolder_ok h
      obtain ⟨hget, -⟩ := Folders.activeFolder_eq_some.mp hfolder
      obtain rfl := (Folders.get_mem hget).2
      exact sound_replace (g := folder) hs hget (Or.inl rfl)

/-! ### The parents of active folders -/

/-- The parent of an active folder is active. -/
def ActiveParents (s : Folders) : Prop :=
  ∀ f ∈ s.rows, f.status = .active → ∀ p, f.parentId = some p → (s.activeFolder p).isSome

/-- A move is refused exactly to the folder, to a descendant of it, and to what is not active. -/
def MovesExact (s : Folders) : Prop :=
  ∀ id u target, (s.get id).isSome → u.name.map Text.strip ≠ some "" →
    u.parentId = some (some target) →
    ((∃ e, updateFolder id u s = .error e) ↔
      target = id ∨ Below s target id ∨ s.activeFolder target = none)

/-- The folders of a state are as they should be. -/
structure Tree (s : Folders) : Prop where
  acyclic : Acyclic s
  moves : MovesExact s
  parents : ActiveParents s

/-- Where an accepted update changes the status, it archives a folder without active children, or
activates one whose parent is active or missing. -/
def Checked (s : Folders) : Action → Prop
  | .update id u => ∀ s' f, updateFolder id u s = .ok s' → s.get id = some f →
      (f.status = .active → u.status = some .archived →
        ∀ g ∈ s.rows, g.parentId = some id → g.status = .archived) ∧
      (f.status = .archived → u.status = some .active →
        ∀ p, (u.apply f).parentId = some p → (s.activeFolder p).isSome)
  | _ => True

theorem movesExact (hs : Acyclic s) : MovesExact s := by
  intro id u target hid hname hparent
  obtain ⟨folder, hget⟩ := Option.isSome_iff_exists.mp hid
  have hupdate : updateFolder id u s =
      (checkMove s id u.parentId >>= fun _ => .ok (s.replace (u.apply folder))) := by
    unfold updateFolder
    rw [hget]
    show (raiseIf _ _ >>= fun _ => _) = _
    rw [(raiseIf_eq_ok (u := ())).mpr hname]
    rfl
  have hmove := @checkMove_ok s id hs hid target
  rw [hupdate, hparent]
  cases hcheck : checkMove s id (some (some target)) with
  | ok u =>
      exact iff_of_false (fun h => by obtain ⟨e, he⟩ := h; cases he) (hmove.mp hcheck)
  | error e =>
      refine iff_of_true ⟨e, rfl⟩ ?_
      by_contra hnot
      rw [hmove.mpr hnot] at hcheck
      cases hcheck

theorem activeFolder_replace (hf : s.get f.id = some g) (p : ℕ) : (s.replace f).activeFolder p =
    if p = f.id then (some f).filter fun f => f.status ≠ .archived else s.activeFolder p := by
  unfold Folders.activeFolder
  rw [get_replace hf]
  split_ifs <;> rfl

/-- A folder is written: its own parent, and its children. -/
theorem activeParents_replace (hs : Sound s) (hactive : ActiveParents s) (hf : s.get f.id = some g)
    (hmoved : Moved s g f) : ActiveParents (s.replace f) ↔
      (g.status = .active → f.status = .archived →
        ∀ h ∈ s.rows, h.parentId = some f.id → h.status = .archived) ∧
      (g.status = .archived → f.status = .active →
        ∀ p, f.parentId = some p → (s.activeFolder p).isSome) := by
  have hsame : ∀ p, p ≠ f.id → (s.replace f).activeFolder p = s.activeFolder p := by
    intro p hp
    rw [activeFolder_replace hf, if_neg hp]
  have hthere : ((s.replace f).activeFolder f.id).isSome ↔ f.status = .active := by
    rw [activeFolder_isSome, get_replace hf, if_pos rfl]
    simp
  have hself := fun p hp => (hmoved.parent hs hf (p := p) hp).1
  constructor
  · intro h
    constructor
    · intro hg harchived k hk hparent
      by_contra hstatus
      have hne : k.id ≠ f.id := by
        intro heq
        have hget := Folders.get_of_mem hk
        rw [heq] at hget
        exact hs.acyclic f.id (Relation.TransGen.single ⟨k, hget, hparent⟩)
      have hkactive : k.status = .active := by
        cases hcases : k.status with
        | active => rfl
        | archived => exact absurd hcases hstatus
      have hsome := h k ((Folders.mem_replace hf).mpr (Or.inr ⟨hk, hne⟩)) hkactive f.id hparent
      rw [hthere, harchived] at hsome
      cases hsome
    · intro _ hf' p hp
      have hsome := h f ((Folders.mem_replace hf).mpr (Or.inl rfl)) hf' p hp
      rwa [hsame p (hself p hp)] at hsome
  · rintro ⟨hchildren, hparent⟩ k hk hkactive p hp
    rcases (Folders.mem_replace hf).mp hk with rfl | ⟨hk, hne⟩
    · rw [hsame p (hself p hp)]
      rcases hmoved with hkept | hmoved
      · cases hg : g.status with
        | active => exact hactive g (Folders.get_mem hf).1 hg p (hkept ▸ hp)
        | archived => exact hparent hg hkactive p hp
      · exact (hmoved p hp).2.2
    · have hsome := hactive k hk hkactive p hp
      by_cases hpf : p = f.id
      · rw [hpf] at hp hsome ⊢
        rw [hthere]
        obtain ⟨g', hg', hactive'⟩ := activeFolder_isSome.mp hsome
        rw [hf, Option.some.injEq] at hg'
        cases hstatus : f.status with
        | active => rfl
        | archived =>
            have harchived := hchildren (hg' ▸ hactive') hstatus k hk hp
            rw [hkactive] at harchived
            cases harchived
      · rwa [hsame p hpf]

theorem activeParents_add (hactive : ActiveParents s) (hid : f.id ∉ s.rows.map Folder.id)
    (hparent : ∀ p, f.parentId = some p → (s.activeFolder p).isSome) : ActiveParents (s.add f hid) := by
  have hkeep : ∀ p, (s.activeFolder p).isSome → ((s.add f hid).activeFolder p).isSome := by
    intro p hp
    rw [activeFolder_isSome] at hp ⊢
    obtain ⟨g, hg, hgactive⟩ := hp
    have hne : p ≠ f.id := by
      rintro rfl
      obtain ⟨hmem, hgid⟩ := Folders.get_mem hg
      exact hid (hgid ▸ List.mem_map_of_mem hmem)
    rw [get_add, if_neg hne]
    exact ⟨g, hg, hgactive⟩
  intro k hk hkactive p hp
  rcases List.mem_cons.mp hk with rfl | hk
  · exact hkeep p (hparent p hp)
  · exact hkeep p (hactive k hk hkactive p hp)

/-- A request keeps the parents of active folders active exactly when it is checked. -/
theorem activeParents_step (hs : Sound s) (hactive : ActiveParents s) {a : Action} (h : perform a s = .ok s') :
    ActiveParents s' ↔ Checked s a := by
  cases a with
  | create id name parentId =>
      obtain ⟨hid, rfl, hparent⟩ := createFolder_ok h
      refine iff_of_true (activeParents_add hactive hid fun p hp => ?_) trivial
      exact Option.isSome_iff_exists.mpr (hparent p hp)
  | update id u =>
      have hupdate : updateFolder id u s = .ok s' := h
      obtain ⟨folder, hget, hmove, rfl⟩ := updateFolder_ok hupdate
      obtain rfl := (Folders.get_mem hget).2
      have hchecked : Checked s (.update folder.id u) ↔
          (folder.status = .active → u.status = some .archived →
            ∀ g ∈ s.rows, g.parentId = some folder.id → g.status = .archived) ∧
          (folder.status = .archived → u.status = some .active →
            ∀ p, (u.apply folder).parentId = some p → (s.activeFolder p).isSome) := by
        constructor
        · exact fun hall => hall _ folder hupdate hget
        · intro hall t f _ hf
          rw [hget, Option.some.injEq] at hf
          rwa [← hf]
      have harchives : folder.status = .active →
          ((u.apply folder).status = .archived ↔ u.status = some .archived) := by
        intro hstatus
        rw [Updates.apply, hstatus]
        cases u.status <;> simp
      have hactivates : folder.status = .archived →
          ((u.apply folder).status = .active ↔ u.status = some .active) := by
        intro hstatus
        rw [Updates.apply, hstatus]
        cases u.status <;> simp
      rw [hchecked, activeParents_replace (f := u.apply folder) hs hactive hget
        (moved_apply hs.acyclic hget hmove)]
      constructor
      · rintro ⟨hchildren, hparent⟩
        exact ⟨fun hf hu => hchildren hf ((harchives hf).mpr hu),
          fun hf hu => hparent hf ((hactivates hf).mpr hu)⟩
      · rintro ⟨hchildren, hparent⟩
        exact ⟨fun hf hu => hchildren hf ((harchives hf).mp hu),
          fun hf hu => hparent hf ((hactivates hf).mp hu)⟩
  | archive id workflows =>
      obtain ⟨folder, hfolder, hempty, rfl⟩ := archiveFolder_ok h
      obtain ⟨hget, _⟩ := Folders.activeFolder_eq_some.mp hfolder
      obtain rfl := (Folders.get_mem hget).2
      refine iff_of_true ?_ trivial
      rw [activeParents_replace (f := { folder with status := .archived }) (g := folder) hs hactive hget
        (Or.inl rfl)]
      exact ⟨fun _ _ => hempty, fun _ hf => (nomatch hf)⟩

/-- In a run, the folders are a tree in every state reached exactly when every request that changes a
status is checked. -/
theorem folders_iff {actions : List Action} {s' : Folders} (h : Run step Free Folders.empty actions s') :
    Throughout step Tree Folders.empty actions ↔ Run step Checked Folders.empty actions s' := by
  refine h.throughout_iff sound_empty ⟨sound_empty.acyclic, movesExact sound_empty.acyclic, nofun⟩ ?_
  intro s a t hs htree hstep
  unfold step at hstep
  cases hperform : perform a s with
  | ok s' =>
      rw [hperform, Option.some.injEq] at hstep
      rw [← hstep]
      have hs' := sound_step hs hperform
      refine ⟨hs', ?_⟩
      rw [← activeParents_step hs htree.parents hperform]
      exact ⟨Tree.parents, fun hactive => ⟨hs'.acyclic, movesExact hs'.acyclic, hactive⟩⟩
  | error e =>
      rw [hperform, Option.some.injEq] at hstep
      rw [← hstep]
      refine ⟨hs, iff_of_true htree ?_⟩
      cases a with
      | create id name parentId | archive id workflows => trivial
      | update id u =>
          intro t f ht
          rw [show updateFolder id u s = .error e from hperform] at ht
          cases ht

/-- A folder and one in it; the outer one is renamed. -/
theorem folders_renamed : ∃ s', Run step Free Folders.empty
      [.create 1 "outer" none, .create 2 "inner" (some 1), .update 1 { name := some "renamed" }] s' ∧
    Throughout step Tree Folders.empty
      [.create 1 "outer" none, .create 2 "inner" (some 1), .update 1 { name := some "renamed" }] := by
  have hchecked : ∀ s, Checked s (.update 1 { name := some "renamed" }) :=
    fun _ _ _ _ _ => ⟨fun _ h => (nomatch h), fun _ h => (nomatch h)⟩
  have hrun : ∀ ok, (∀ s a, a ∈ [Action.create 1 "outer" none, .create 2 "inner" (some 1),
      .update 1 { name := some "renamed" }] → ok s a) → Run step ok Folders.empty
      [.create 1 "outer" none, .create 2 "inner" (some 1), .update 1 { name := some "renamed" }] _ :=
    fun ok h => Run.step (h _ _ (by decide)) rfl (Run.step (h _ _ (by decide)) rfl
      (Run.step (h _ _ (by decide)) rfl (Run.refl _)))
  refine ⟨_, hrun Free fun _ _ _ => trivial, (folders_iff (hrun Free fun _ _ _ => trivial)).mpr
    (hrun Checked fun s a ha => ?_)⟩
  simp only [List.mem_cons, List.not_mem_nil, or_false] at ha
  rcases ha with rfl | rfl | rfl
  · trivial
  · trivial
  · exact hchecked s

/-- The outer folder is archived over its active folder. -/
theorem outer_archived : ∃ s', Run step Free Folders.empty
      [.create 1 "outer" none, .create 2 "inner" (some 1), .update 1 { status := some .archived }] s' ∧
    ∃ f ∈ s'.rows, f.status = .active ∧ f.parentId = some 1 ∧ s'.activeFolder 1 = none :=
  exists_run (by decide +kernel)

end RecoveryService.DataPlatformFolders

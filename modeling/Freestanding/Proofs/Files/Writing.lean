import Freestanding.Files.Tree

/-!
# Where files can be written

A file can be written in every directory that a path leads to, from the root or from the working
directory, unless a directory has its name. Whether it can depends only on where files and
directories stand, not on what the files hold.
-/
namespace Freestanding.Files

open Freestanding.Text (length_utf8_pos utf8 utf8_append)

/-- A name that stands for itself among the parts of a path. -/
structure Plain (name : String) : Prop where
  slash : '/' ∉ name.toList
  zero : '\x00' ∉ name.toList
  nonempty : name ≠ ""
  dot : name ≠ "."
  dots : name ≠ ".."
  short : (utf8 name).length ≤ 255

/-- A path leads to a directory, and the file can stand there. The empty path is the working
directory, so the directory is what a dot in it leads to. -/
structure Tree.Writable (tree : Tree) (directory name : String) : Prop where
  leads : tree.resolve (inDirectory directory ".") = .ok .directory
  free : tree.resolve (inDirectory directory name) ≠ .ok .directory
  short : (utf8 (inDirectory directory name)).length < 4096

variable {tree other : Tree} {place : List String} {path name : String}

theorem bind_eq_ok {α β : Type} {first : Except FileError α} {next : α → Except FileError β}
    {b : β} : (first >>= next) = .ok b ↔ ∃ a, first = .ok a ∧ next a = .ok b := by
  cases first <;> simp [bind, Except.bind]

theorem guard_eq_ok {β : Type} {guard : Except FileError Unit} {next : Except FileError β}
    {b : β} : (guard >>= fun _ => next) = .ok b ↔ guard = .ok () ∧ next = .ok b := by
  cases guard <;> simp [bind, Except.bind]

/-! ## What a path leads to -/

theorem checkPath_eq_ok_iff :
    checkPath path = .ok () ↔ '\x00' ∉ path.toList ∧ path ≠ "" ∧ (utf8 path).length < 4096 := by
  unfold checkPath pathLimit
  constructor
  · intro h
    split at h
    · cases h
    next hzero =>
    split at h
    · cases h
    next hempty =>
    split at h
    · cases h
    next hlength => exact ⟨hzero, hempty, by omega⟩
  · rintro ⟨hzero, hempty, hlength⟩
    rw [if_neg hzero, if_neg hempty, if_neg (by omega)]

theorem checkPath_append_iff (base : String) (hzero : '\x00' ∉ name.toList) (hname : name ≠ "") :
    checkPath (base ++ name) = .ok () ↔
      '\x00' ∉ base.toList ∧ (utf8 (base ++ name)).length < 4096 := by
  have hpath : base ++ name ≠ "" := fun h => hname (String.append_eq_empty_iff.mp h).2
  rw [checkPath_eq_ok_iff, String.toList_append, List.mem_append, or_iff_left hzero,
    and_iff_right hpath]

theorem Tree.follow_append (tree : Tree) (place front back : List String) :
    tree.follow place (front ++ back) =
      (tree.follow place front >>= fun reached => tree.follow reached back) := by
  induction front generalizing place with
  | nil => rfl
  | cons part front ih =>
    simp only [List.cons_append, Tree.follow]
    cases tree.node? place with
    | none => rfl
    | some found =>
      cases found with
      | file bytes => rfl
      | directory =>
        simp only [ih]
        split
        · rfl
        · split
          · rfl
          · split <;> rfl

theorem Tree.follow_append_eq_ok {front back reached : List String} :
    tree.follow place (front ++ back) = .ok reached ↔
      ∃ middle, tree.follow place front = .ok middle ∧ tree.follow middle back = .ok reached := by
  rw [Tree.follow_append, bind_eq_ok]

theorem Tree.follow_dot {reached : List String} :
    tree.follow place ["."] = .ok reached ↔
      tree.node? place = some .directory ∧ place = reached := by
  simp only [Tree.follow]
  cases tree.node? place with
  | none => simp
  | some found => cases found <;> simp

theorem Tree.follow_plain (h : Plain name) {reached : List String} :
    tree.follow place [name] = .ok reached ↔
      tree.node? place = some .directory ∧ place ++ [name] = reached := by
  have hstay : ¬ (name = "" ∨ name = ".") := not_or.mpr ⟨h.nonempty, h.dot⟩
  have hshort : ¬ (utf8 name).length > maxName := Nat.not_lt.mpr h.short
  simp only [Tree.follow, hstay, h.dots, hshort, ↓reduceIte]
  cases tree.node? place with
  | none => simp
  | some found => cases found <;> simp

theorem Tree.resolve_eq_ok_iff {node : Node} :
    tree.resolve path = .ok node ↔ checkPath path = .ok () ∧
      ∃ reached, tree.follow (tree.start path) (parts path) = .ok reached ∧
        tree.node? reached = some node := by
  rw [Tree.resolve, guard_eq_ok, bind_eq_ok]
  refine and_congr_right fun _ => exists_congr fun reached => and_congr_right fun _ => ?_
  cases tree.node? reached <;> simp

/-- Where a path ends is decided by its last part, from where the others lead. -/
theorem Tree.resolve_concat_iff {node : Node} {front : List String} {part : String}
    (h : parts path = front ++ [part]) :
    tree.resolve path = .ok node ↔ checkPath path = .ok () ∧
      ∃ middle, tree.follow (tree.start path) front = .ok middle ∧
        ∃ reached, tree.follow middle [part] = .ok reached ∧ tree.node? reached = some node := by
  simp only [Tree.resolve_eq_ok_iff, h, Tree.follow_append_eq_ok]
  refine and_congr_right fun _ => ?_
  constructor
  · rintro ⟨reached, ⟨middle, hfront, hlast⟩, hnode⟩
    exact ⟨middle, hfront, reached, hlast, hnode⟩
  · rintro ⟨middle, hfront, reached, hlast, hnode⟩
    exact ⟨reached, ⟨middle, hfront, hlast⟩, hnode⟩

theorem start_append (tree : Tree) {base name : String} (h : base ≠ "") :
    tree.start (base ++ name) = tree.start base := by
  have hbase : base.toList ≠ [] := fun hnil => h (String.toList_eq_nil_iff.mp hnil)
  obtain ⟨c, cs, hcs⟩ := List.exists_cons_of_ne_nil hbase
  rw [Tree.start, Tree.start, String.toList_append, hcs, List.cons_append, List.head?_cons,
    List.head?_cons]

theorem parts_name (h : '/' ∉ name.toList) : parts name = [name] := by
  rw [parts, List.splitOn_eq_singleton h, List.map_singleton, String.ofList_toList]

theorem parts_append_name (front : String) (h : '/' ∉ name.toList) :
    parts (front ++ "/" ++ name) = parts front ++ [name] := by
  have hslash : (front ++ "/" ++ name).toList = front.toList ++ '/' :: name.toList := by
    simp [String.toList_append]
  rw [parts, hslash, List.splitOn_append_cons_self, List.splitOn_eq_singleton h, List.map_append,
    List.map_singleton, String.ofList_toList, parts]

/-- A path in a directory begins where the directory's does, and its last part is the name. -/
theorem inDirectory_route (tree : Tree) (directory : String) :
    ∃ base start front, ∀ name : String, '/' ∉ name.toList →
      inDirectory directory name = base ++ name ∧ tree.start (base ++ name) = start ∧
        parts (base ++ name) = front ++ [name] := by
  have hslashed (front : String) : ∃ start before, ∀ name : String, '/' ∉ name.toList →
      tree.start (front ++ "/" ++ name) = start ∧
        parts (front ++ "/" ++ name) = before ++ [name] :=
    ⟨_, _, fun name hname => ⟨start_append tree (by simp), parts_append_name front hname⟩⟩
  unfold inDirectory
  split
  · next hlast =>
    obtain rfl : directory = "" := String.toList_eq_nil_iff.mp (List.getLast?_eq_none_iff.mp hlast)
    refine ⟨"", tree.workingDirectory, [], fun name hname => ?_⟩
    have hhead : name.toList.head? ≠ some '/' := fun h => hname (List.mem_of_head? h)
    rw [String.empty_append]
    exact ⟨rfl, if_neg hhead, parts_name hname⟩
  · next hlast =>
    obtain ⟨front, hfront⟩ := List.getLast?_eq_some_iff.mp hlast
    have hdirectory : directory = String.ofList front ++ "/" := by
      rw [← String.ofList_toList (s := directory), hfront, String.ofList_append]
    obtain ⟨start, before, h⟩ := hslashed (String.ofList front)
    exact ⟨_, start, before, fun name hname => ⟨rfl, hdirectory ▸ h name hname⟩⟩
  · obtain ⟨start, before, h⟩ := hslashed directory
    exact ⟨_, start, before, fun name hname => ⟨rfl, h name hname⟩⟩

/-! ## Writable places -/

theorem Tree.checkEntry_eq_ok_iff (h : Plain name) :
    tree.checkEntry place name = .ok () ↔
      tree.node? place = some .directory ∧ tree.node? (place ++ [name]) ≠ some .directory := by
  have hshort : ¬ (utf8 name).length > maxName := Nat.not_lt.mpr h.short
  unfold Tree.checkEntry
  cases tree.node? place with
  | none => simp
  | some found => cases found <;> simp [hshort]

/-- A file can be written in the directories that paths lead to. -/
theorem Tree.checkWrite_eq_ok_iff (h : Plain name) {directory : String} :
    tree.checkWrite directory name = .ok () ↔ tree.Writable directory name := by
  obtain ⟨base, start, front, hroute⟩ := inDirectory_route tree directory
  obtain ⟨hpath, hstart, hparts⟩ := hroute name h.slash
  obtain ⟨hdot, hstart', hparts'⟩ := hroute "." (by decide)
  have hwrite : tree.checkWrite directory name = .ok () ↔ checkPath (base ++ name) = .ok () ∧
      ∃ place, tree.follow start front = .ok place ∧ tree.checkEntry place name = .ok () := by
    simp only [Tree.checkWrite, hpath]
    rw [guard_eq_ok, bind_eq_ok, hstart, hparts, List.dropLast_concat]
  have hleads : tree.resolve (inDirectory directory ".") = .ok .directory ↔
      checkPath (base ++ ".") = .ok () ∧
        ∃ place, tree.follow start front = .ok place ∧ tree.node? place = some .directory := by
    rw [hdot, Tree.resolve_concat_iff hparts', hstart']
    simp only [Tree.follow_dot, and_assoc, exists_and_left, exists_eq_left', and_self]
  have htaken : tree.resolve (inDirectory directory name) = .ok .directory ↔
      checkPath (base ++ name) = .ok () ∧
        ∃ place, tree.follow start front = .ok place ∧ tree.node? place = some .directory ∧
          tree.node? (place ++ [name]) = some .directory := by
    rw [hpath, Tree.resolve_concat_iff hparts, hstart]
    simp only [Tree.follow_plain h, and_assoc, exists_and_left, exists_eq_left']
  -- The path of the name is the longer one, so it is the one that can be too long.
  have hcheck := checkPath_append_iff base h.zero h.nonempty
  have hcheck' := checkPath_append_iff base (by decide : '\x00' ∉ ".".toList) (by decide)
  have hlonger : (utf8 (base ++ ".")).length ≤ (utf8 (base ++ name)).length := by
    have hname := length_utf8_pos h.nonempty
    have hone : (utf8 ".").length = 1 := by decide
    rw [utf8_append, utf8_append, List.length_append, List.length_append]
    omega
  constructor
  · intro hok
    obtain ⟨hallowed, place, hfollow, hentry⟩ := hwrite.mp hok
    obtain ⟨hdirectory, hfree⟩ := (Tree.checkEntry_eq_ok_iff h).mp hentry
    obtain ⟨hzero, hshort⟩ := hcheck.mp hallowed
    have hallowed' := hcheck'.mpr ⟨hzero, Nat.lt_of_le_of_lt hlonger hshort⟩
    refine ⟨hleads.mpr ⟨hallowed', place, hfollow, hdirectory⟩, fun hresolve => ?_, hpath ▸ hshort⟩
    obtain ⟨-, place', hfollow', -, hnamed⟩ := htaken.mp hresolve
    obtain rfl := Except.ok.inj (hfollow.symm.trans hfollow')
    exact hfree hnamed
  · rintro ⟨hresolve, hfree, hshort⟩
    obtain ⟨hallowed', place, hfollow, hdirectory⟩ := hleads.mp hresolve
    have hallowed := hcheck.mpr ⟨(hcheck'.mp hallowed').1, hpath ▸ hshort⟩
    refine hwrite.mpr ⟨hallowed, place, hfollow, (Tree.checkEntry_eq_ok_iff h).mpr ⟨hdirectory, ?_⟩⟩
    exact fun hnamed => hfree (htaken.mpr ⟨hallowed, place, hfollow, hdirectory, hnamed⟩)

/-! ## Paths from the root -/

/-- The path from the root to a place below it. -/
def fromRoot (place : List String) : String := "/".intercalate ("" :: place)

theorem fromRoot_concat (place : List String) (name : String) :
    fromRoot (place ++ [name]) = fromRoot place ++ "/" ++ name := by
  rw [fromRoot, ← List.cons_append, String.intercalate_append_of_ne_nil (by simp) (by simp),
    String.intercalate_singleton, fromRoot]

theorem parts_fromRoot (h : ∀ part ∈ place, '/' ∉ part.toList) :
    parts (fromRoot place) = "" :: place := by
  have hslash : ∀ part ∈ ("" :: place).map String.toList, '/' ∉ part := by
    simpa using h
  have hsplit := List.splitOn_intercalate '/' hslash (by simp)
  have hone : "/".toList = ['/'] := rfl
  rw [parts, fromRoot, String.toList_intercalate, hone, hsplit, List.map_map]
  simp [Function.comp_def]

theorem zero_notMem_intercalate (h : ∀ part ∈ place, '\x00' ∉ part.toList) :
    '\x00' ∉ ("/".intercalate place).toList := by
  induction place with
  | nil => exact List.not_mem_nil
  | cons part more ih =>
    rw [List.forall_mem_cons] at h
    cases more with
    | nil => rw [String.intercalate_singleton]; exact h.1
    | cons next more =>
      rw [String.intercalate_cons_cons, String.toList_append, String.toList_append,
        List.mem_append, List.mem_append, not_or, not_or]
      exact ⟨⟨h.1, by decide⟩, ih h.2⟩

theorem start_fromRoot (tree : Tree) (h : place ≠ []) : tree.start (fromRoot place) = [] := by
  obtain ⟨part, more, rfl⟩ := List.exists_cons_of_ne_nil h
  rw [fromRoot, String.intercalate_cons_cons, String.empty_append, start_append tree (by decide)]
  rfl

theorem inDirectory_fromRoot (h : place ≠ []) (hplain : ∀ part ∈ place, Plain part)
    (name : String) : inDirectory (fromRoot place) name = fromRoot (place ++ [name]) := by
  -- The last part ends the path, so no slash does.
  obtain ⟨c, hc, hlast⟩ : ∃ c, c ≠ '/' ∧ (fromRoot place).toList.getLast? = some c := by
    obtain ⟨front, part, rfl⟩ := (List.eq_nil_or_concat place).resolve_left h
    have hpart := hplain part (by simp)
    have hne : part.toList ≠ [] := fun hnil => hpart.nonempty (String.toList_eq_nil_iff.mp hnil)
    refine ⟨part.toList.getLast hne, ?_, ?_⟩
    · exact fun hslash => hpart.slash (hslash ▸ List.getLast_mem hne)
    · rw [List.concat_eq_append, fromRoot_concat, String.toList_append, List.getLast?_append,
        List.getLast?_eq_some_getLast hne]
      rfl
  rw [fromRoot_concat, inDirectory, hlast]
  split
  · next hnone => cases hnone
  · next hslash => exact absurd (Option.some.inj hslash) hc
  · rfl

theorem Tree.follow_plains {steps : List String} (h : ∀ part ∈ steps, Plain part)
    (hway : ∀ n < steps.length, tree.node? (place ++ steps.take n) = some .directory) :
    tree.follow place steps = .ok (place ++ steps) := by
  induction steps generalizing place with
  | nil => rw [List.append_nil]; rfl
  | cons part steps ih =>
    rw [List.forall_mem_cons] at h
    have hfirst : tree.follow place [part] = .ok (place ++ [part]) := by
      have hplace := hway 0 (by simp)
      rw [List.take_zero, List.append_nil] at hplace
      exact (Tree.follow_plain h.1).mpr ⟨hplace, rfl⟩
    have hothers : tree.follow (place ++ [part]) steps = .ok (place ++ [part] ++ steps) := by
      refine ih h.2 fun n hn => ?_
      have hplace := hway (n + 1) (Nat.succ_lt_succ hn)
      rwa [List.take_succ_cons, ← List.singleton_append, ← List.append_assoc] at hplace
    have hall := Tree.follow_append_eq_ok.mpr ⟨_, hfirst, hothers⟩
    rwa [List.append_assoc] at hall

/-- Whatever directory stands below the root, a file can be written in it by its path from there. -/
theorem Tree.writable_fromRoot (h : place ≠ []) (hplain : ∀ part ∈ place, Plain part)
    (hname : Plain name) (hway : ∀ n, tree.node? (place.take n) = some .directory)
    (hfree : tree.node? (place ++ [name]) ≠ some .directory)
    (hshort : (utf8 (fromRoot (place ++ [name]))).length < 4096) :
    tree.Writable (fromRoot place) name := by
  have hall : ∀ part ∈ place ++ [name], Plain part := by
    intro part hpart
    exact (List.mem_append.mp hpart).elim (hplain part) fun h => List.mem_singleton.mp h ▸ hname
  have hpath : checkPath (fromRoot (place ++ [name])) = .ok () := by
    refine checkPath_eq_ok_iff.mpr ⟨zero_notMem_intercalate ?_, ?_, hshort⟩
    · rw [List.forall_mem_cons]
      exact ⟨by decide, fun part hpart => (hall part hpart).zero⟩
    · rw [fromRoot_concat]
      exact fun hempty => hname.nonempty (String.append_eq_empty_iff.mp hempty).2
  have hparts : parts (fromRoot (place ++ [name])) = ("" :: place) ++ [name] :=
    parts_fromRoot fun part hpart => (hall part hpart).slash
  have hroot : tree.node? [] = some .directory := hway 0
  have hfollow : tree.follow [] ("" :: place) = .ok place := by
    rw [Tree.follow, hroot]
    exact Tree.follow_plains hplain fun n _ => hway n
  have hplace : tree.node? place = some .directory := by
    have hwhole := hway place.length
    rwa [List.take_length] at hwhole
  rw [← Tree.checkWrite_eq_ok_iff hname]
  simp only [Tree.checkWrite, inDirectory_fromRoot h hplain]
  rw [guard_eq_ok, bind_eq_ok, start_fromRoot tree (by simp), hparts, List.dropLast_concat]
  exact ⟨hpath, place, hfollow, (Tree.checkEntry_eq_ok_iff hname).mpr ⟨hplace, hfree⟩⟩

/-! ## Trees of the same outline -/

/-- At a place there is nothing, a file or a directory in both of two trees. -/
inductive SameKind : Option Node → Option Node → Prop
  | none : SameKind none none
  | file (bytes others : List UInt8) : SameKind (some (.file bytes)) (some (.file others))
  | directory : SameKind (some .directory) (some .directory)

structure Tree.Alike (tree other : Tree) : Prop where
  workingDirectory : other.workingDirectory = tree.workingDirectory
  kind : ∀ place, SameKind (tree.node? place) (other.node? place)

/-- Nothing but what stands at one place differs. -/
structure Tree.AgreesExcept (place : List String) (tree other : Tree) : Prop where
  workingDirectory : other.workingDirectory = tree.workingDirectory
  elsewhere : ∀ others, others ≠ place → other.node? others = tree.node? others

theorem SameKind.refl (found : Option Node) : SameKind found found :=
  match found with
  | Option.none => .none
  | some (.file bytes) => .file bytes bytes
  | some .directory => .directory

theorem SameKind.directory_iff {found others : Option Node} (h : SameKind found others) :
    found = some .directory ↔ others = some .directory := by
  cases h <;> simp

theorem Tree.AgreesExcept.alike {bytes others : List UInt8} (h : tree.AgreesExcept place other)
    (hfile : tree.node? place = some (.file bytes))
    (hother : other.node? place = some (.file others)) : tree.Alike other where
  workingDirectory := h.workingDirectory
  kind := by
    intro found
    by_cases hplace : found = place
    · rw [hplace, hfile, hother]
      exact .file bytes others
    · rw [h.elsewhere found hplace]
      exact .refl _

theorem Tree.Alike.follow_eq (h : tree.Alike other) (place : List String) (parts : List String) :
    tree.follow place parts = other.follow place parts := by
  induction parts generalizing place with
  | nil => rfl
  | cons part parts ih =>
    have hsame := h.kind place
    simp only [Tree.follow]
    generalize tree.node? place = found at hsame ⊢
    generalize other.node? place = others at hsame ⊢
    cases hsame with
    | none => rfl
    | file => rfl
    | directory => simp only [ih]

theorem Tree.Alike.checkEntry_eq (h : tree.Alike other) (place : List String) (name : String) :
    tree.checkEntry place name = other.checkEntry place name := by
  have hsame := h.kind place
  unfold Tree.checkEntry
  generalize tree.node? place = found at hsame ⊢
  generalize other.node? place = others at hsame ⊢
  cases hsame with
  | none => rfl
  | file => rfl
  | directory => simp only [(h.kind (place ++ [name])).directory_iff]

theorem Tree.Alike.checkWrite_eq (h : tree.Alike other) (directory name : String) :
    tree.checkWrite directory name = other.checkWrite directory name := by
  simp only [Tree.checkWrite, Tree.start, h.workingDirectory, h.follow_eq, h.checkEntry_eq]

theorem Tree.Alike.writable (h : tree.Alike other) (hname : Plain name) {directory : String}
    (hwrite : tree.Writable directory name) : other.Writable directory name := by
  rw [← Tree.checkWrite_eq_ok_iff hname] at hwrite ⊢
  rw [← h.checkWrite_eq, hwrite]

/-! ## Files in the working directory -/

theorem Tree.read_eq_ok_iff {bytes : List UInt8} :
    tree.read path = .ok bytes ↔ tree.resolve path = .ok (.file bytes) := by
  rw [Tree.read, bind_eq_ok]
  constructor
  · rintro ⟨node, hnode, hread⟩
    cases node with
    | directory => cases hread
    | file others => rwa [← Except.ok.inj hread]
  · intro h
    exact ⟨_, h, rfl⟩

theorem Tree.present_of_read {bytes : List UInt8} (h : tree.read path = .ok bytes) :
    tree.present path = true := by
  rw [Tree.present, Tree.read_eq_ok_iff.mp h]
  rfl

/-- A file that is read by its name alone stands in the working directory. -/
theorem Tree.node?_of_read (h : Plain name) {bytes : List UInt8}
    (hread : tree.read name = .ok bytes) :
    tree.node? (tree.workingDirectory ++ [name]) = some (.file bytes) := by
  obtain ⟨-, reached, hfollow, hnode⟩ := Tree.resolve_eq_ok_iff.mp (Tree.read_eq_ok_iff.mp hread)
  have hhead : name.toList.head? ≠ some '/' := fun hslash => h.slash (List.mem_of_head? hslash)
  rw [Tree.start, if_neg hhead, parts_name h.slash, Tree.follow_plain h] at hfollow
  rw [hfollow.2, hnode]

/-- Trees that differ only in what one file of the working directory holds are of one outline. -/
theorem Tree.AgreesExcept.alike_of_read (hname : Plain name) {bytes others : List UInt8}
    (h : tree.AgreesExcept (tree.workingDirectory ++ [name]) other)
    (hread : tree.read name = .ok bytes) (hother : other.read name = .ok others) :
    tree.Alike other := by
  have hnode := Tree.node?_of_read hname hother
  rw [h.workingDirectory] at hnode
  exact h.alike (Tree.node?_of_read hname hread) hnode

end Freestanding.Files

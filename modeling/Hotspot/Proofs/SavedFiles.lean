/-
  Hotspot/Proofs/SavedFiles.lean
  ==============================
  **A text that can take the place of a file is found there.**

  Saving writes the text beside the file and renames it.  Directories are there because of the
  files in them, so with every file that comes or goes a path could lead elsewhere.  The temporary
  file lies in the directory of the file that it becomes (`temporary?_eq_some`), and its name has
  no slash in it, so every directory around the one is around the other.  No directory is lost
  when the one turns into the other, and none comes to be in its place.
-/
import Hotspot.Command.Files
import Hotspot.Proofs.OrderedMap
import Hotspot.Proofs.Pieces
import Mathlib.Data.List.TakeWhile

namespace Hotspot

/-! ### Paths -/

def Location.inside (l : Location) (name : String) : Location :=
  { l with names := l.names ++ [name] }

namespace Path

/-- No part of a path has a slash in it. -/
theorem slash_notMem_of_mem_parts {p part : String} (h : part ∈ parts p) :
    '/' ∉ part.toList := by
  obtain ⟨piece, hpiece, rfl⟩ := List.mem_map.1 h
  rw [String.toList_ofList]
  exact Pieces.notMem_of_mem_splitOn hpiece

/-- The parts of a path that is put together from parts. -/
theorem parts_intercalate {ps : List String} (h : ∀ part ∈ ps, '/' ∉ part.toList) (hne : ps ≠ []) :
    parts ("/".intercalate ps) = ps := by
  have hslash : "/".toList = ['/'] := rfl
  unfold parts
  rw [String.toList_intercalate, hslash, List.splitOn_intercalate, List.map_map]
  · exact List.map_id'' (fun part => String.ofList_toList) ps
  · intro piece hpiece
    obtain ⟨part, hpart, rfl⟩ := List.mem_map.1 hpiece
    exact h part hpart
  · exact mt List.map_eq_nil_iff.1 hne

theorem mem_of_mem_stem {name : String} {c : Char} (h : c ∈ (stem name).toList) :
    c ∈ name.toList := by
  unfold stem at h
  split at h
  · exact h
  · rw [String.toList_ofList, List.mem_reverse] at h
    exact List.mem_reverse.1 ((List.dropWhile_sublist _).mem (List.mem_of_mem_drop h))

/-- The place that a path leads to, whether something is on the way or not. -/
def destination (path : String) : Location := (parts path).foldl Location.next (start path)

theorem foldl_next_of_idle {ps : List String} (h : ∀ part ∈ ps, isIdle part = true) (l : Location) :
    ps.foldl Location.next l = l := by
  induction ps with
  | nil => rfl
  | cons part rest ih =>
    have hstay : l.next part = l := by
      have hidle := h part List.mem_cons_self
      rw [isIdle, Bool.or_eq_true, decide_eq_true_eq, decide_eq_true_eq] at hidle
      rw [Location.next, if_pos hidle]
    rw [List.foldl_cons, hstay]
    exact ih fun part' hpart' => h part' (List.mem_cons_of_mem part hpart')

theorem next_of_name {part : String} (hidle : isIdle part = false) (hout : part ≠ "..")
    (l : Location) : l.next part = l.inside part := by
  rw [isIdle, Bool.or_eq_false_iff, decide_eq_false_iff_not, decide_eq_false_iff_not] at hidle
  rw [Location.next, if_neg (not_or.2 hidle), if_neg hout]
  rfl

/-- A path with a temporary file is some directories, a name, and idle parts. -/
theorem parts_of_temporary? {path temporary : String} (h : temporary? path = some temporary) :
    ∃ dirs name after, parts path = dirs ++ name :: after ∧ isIdle name = false ∧ name ≠ ".." ∧
      (∀ part ∈ after, isIdle part = true) ∧
      temporary = "/".intercalate (dirs ++ [stem name ++ ".json.tmp"]) := by
  unfold temporary? at h
  dsimp only at h
  split at h
  · cases h
  · rename_i name before hsplit
    split at h
    · cases h
    · rename_i hname
      have hidle : isIdle name = false := by
        have hhead := List.head?_dropWhile_not isIdle (parts path).reverse
        rw [hsplit] at hhead
        exact hhead
      refine ⟨before.reverse, name, ((parts path).reverse.takeWhile isIdle).reverse, ?_, hidle,
        (not_or.1 hname).1, ?_, (Option.some.inj h).symm⟩
      · calc parts path
            = ((parts path).reverse.takeWhile isIdle ++
                (parts path).reverse.dropWhile isIdle).reverse := by
              rw [List.takeWhile_append_dropWhile, List.reverse_reverse]
          _ = before.reverse ++ name :: ((parts path).reverse.takeWhile isIdle).reverse := by
              rw [hsplit, List.reverse_append, List.reverse_cons, List.append_assoc]
              rfl
      · exact fun part hpart => List.mem_takeWhile_imp (List.mem_reverse.1 hpart)

/-- The name of a temporary file is a name. -/
theorem temporaryName (name : String) :
    isIdle (stem name ++ ".json.tmp") = false ∧ stem name ++ ".json.tmp" ≠ ".." := by
  have hlong : 9 ≤ (stem name ++ ".json.tmp").toList.length := by
    rw [String.toList_append, List.length_append]
    exact Nat.le_add_left 9 _
  have hne : ∀ part : String, part.toList.length < 9 → stem name ++ ".json.tmp" ≠ part := by
    rintro part hshort rfl
    omega
  refine ⟨?_, hne ".." (by decide)⟩
  rw [isIdle, Bool.or_eq_false_iff, decide_eq_false_iff_not, decide_eq_false_iff_not]
  exact ⟨hne "" (by decide), hne "." (by decide)⟩

/-- Where a path begins does not depend on the name at its end. -/
theorem start_congr {path path' name name' : String} {dirs after : List String}
    (hname : isIdle name = false) (hname' : isIdle name' = false)
    (h : parts path = dirs ++ name :: after) (h' : parts path' = dirs ++ [name']) :
    start path = start path' := by
  unfold start
  rw [h, h']
  cases dirs with
  | nil =>
    have hne : (name :: after).head? ≠ some "" := by
      intro hc
      rw [Option.some.inj hc] at hname
      cases hname
    have hne' : [name'].head? ≠ some "" := by
      intro hc
      rw [Option.some.inj hc] at hname'
      cases hname'
    rw [List.nil_append, List.nil_append, if_neg hne, if_neg hne']
  | cons dir rest => rfl

/-- **The temporary file lies beside the file that it becomes.** -/
theorem temporary?_eq_some {path temporary : String} (h : temporary? path = some temporary) :
    ∃ (l : Location) (name name' : String), '/' ∉ name'.toList ∧
      destination path = l.inside name ∧ destination temporary = l.inside name' := by
  obtain ⟨dirs, name, after, hparts, hname, hout, hafter, rfl⟩ := parts_of_temporary? h
  obtain ⟨hname', hout'⟩ := temporaryName name
  -- the new path is cut into the parts that it was put together from, as none has a slash
  have hslash : ∀ part ∈ dirs ++ [name], '/' ∉ part.toList := by
    intro part hpart
    apply slash_notMem_of_mem_parts (p := path)
    rw [hparts, List.append_cons]
    exact List.mem_append_left _ hpart
  have hslash' : '/' ∉ (stem name ++ ".json.tmp").toList := by
    rw [String.toList_append, List.mem_append, not_or]
    refine ⟨fun hc => hslash name ?_ (mem_of_mem_stem hc), by decide⟩
    exact List.mem_append_right _ List.mem_cons_self
  have hparts' : parts ("/".intercalate (dirs ++ [stem name ++ ".json.tmp"])) =
      dirs ++ [stem name ++ ".json.tmp"] := by
    refine parts_intercalate (fun part hpart => ?_) (List.append_ne_nil_of_right_ne_nil _ (by simp))
    rcases List.mem_append.1 hpart with hpart | hpart
    · exact hslash part (List.mem_append_left _ hpart)
    · exact List.mem_singleton.1 hpart ▸ hslash'
  refine ⟨dirs.foldl Location.next (start path), name, _, hslash', ?_, ?_⟩
  · unfold destination
    rw [hparts, List.foldl_append, List.foldl_cons, next_of_name hname hout]
    exact foldl_next_of_idle hafter _
  · unfold destination
    rw [hparts', ← start_congr hname hname' hparts hparts', List.foldl_append, List.foldl_cons,
      next_of_name hname' hout']
    rfl

end Path

/-! ### Places -/

namespace Location

/-- The keys of the places inside one place differ in their last part only. -/
theorem key_inside (l : Location) : ∃ base : List Char, ∀ name,
    (l.inside name).key.toList = base ++ name.toList := by
  have hlast : ∀ (names : List String) (name : String), ("/".intercalate (names ++ [name])).toList =
      names.flatMap (fun part => part.toList ++ ['/']) ++ name.toList := by
    intro names name
    have hslash : "/".toList = ['/'] := rfl
    rw [String.toList_intercalate, hslash, List.map_append]
    induction names with
    | nil => simp
    | cons part rest ih =>
      obtain ⟨next, others, heq⟩ : ∃ next others,
          rest.map String.toList ++ [name].map String.toList = next :: others :=
        List.exists_cons_of_ne_nil (List.append_ne_nil_of_right_ne_nil _ (by simp))
      rw [List.map_cons, List.cons_append, heq, List.intercalate_cons_cons, ← heq, ih,
        List.flatMap_cons]
      simp only [List.append_assoc]
  unfold key inside
  cases l.origin with
  | root =>
    refine ⟨'/' :: l.names.flatMap fun part => part.toList ++ ['/'], fun name => ?_⟩
    dsimp only
    rw [String.toList_append, hlast]
    rfl
  | above levels =>
    refine ⟨(List.replicate levels ".." ++ l.names).flatMap fun part => part.toList ++ ['/'],
      fun name => ?_⟩
    dsimp only
    rw [← List.append_assoc, hlast]

/-- What ends in a slash and begins a key in a directory begins every key there. -/
theorem prefix_key_inside {l : Location} {front : List Char} {name : String}
    (hslash : '/' ∉ name.toList) (h : front ++ ['/'] <+: (l.inside name).key.toList)
    (name' : String) : front ++ ['/'] <+: (l.inside name').key.toList := by
  obtain ⟨base, hbase⟩ := l.key_inside
  rw [hbase] at h ⊢
  rcases List.prefix_or_prefix_of_prefix h (List.prefix_append base _) with hshort | ⟨rest, hrest⟩
  · exact hshort.trans (List.prefix_append base _)
  · have hrestName : rest <+: name.toList := by
      rw [← hrest] at h
      exact (List.prefix_append_right_inj base).1 h
    cases hend : rest.getLast? with
    | none =>
      rw [List.getLast?_eq_none_iff] at hend
      rw [← hrest, hend, List.append_nil]
      exact List.prefix_append base _
    | some c =>
      have hc : (base ++ rest).getLast? = some c := by
        rw [List.getLast?_append, hend, Option.some_or]
      rw [hrest, List.getLast?_concat, Option.some.injEq] at hc
      exact absurd (hrestName.subset (hc ▸ List.mem_of_getLast? hend)) hslash

end Location

/-! ### Files -/

namespace Files

variable {fs fs' : Files} {l place : Location} {path text : String}

theorem isDirectory_iff : fs.isDirectory l = true ↔
    l.names = [] ∨ l ∈ standardDirectories ∨
      ∃ key, fs.texts.contains key = true ∧ l.key.toList ++ ['/'] <+: key.toList := by
  have hslash : (l.key ++ "/").toList = l.key.toList ++ ['/'] := String.toList_append
  unfold isDirectory
  rw [Bool.or_eq_true, Bool.or_eq_true, List.isEmpty_iff, List.contains_iff_mem, List.any_eq_true,
    or_assoc, hslash]
  simp only [OrderedMap.mem_keys_iff, List.isPrefixOf_iff_prefix]

/-- Directories are kept when each file leaves one in the same directories. -/
theorem isDirectory_mono (h : ∀ front key, fs.texts.contains key = true →
      front ++ ['/'] <+: key.toList →
      ∃ key', fs'.texts.contains key' = true ∧ front ++ ['/'] <+: key'.toList)
    (hl : fs.isDirectory l = true) : fs'.isDirectory l = true := by
  rw [isDirectory_iff] at hl ⊢
  rcases hl with hnames | hstandard | ⟨key, hkey, hprefix⟩
  · exact Or.inl hnames
  · exact Or.inr (Or.inl hstandard)
  · exact Or.inr (Or.inr (h _ key hkey hprefix))

theorem foldlM_step? {ps : List String} {l₀ : Location} (h : ps.foldlM fs.step? l₀ = some l)
    (hdir : ∀ l, fs.isDirectory l = true → fs'.isDirectory l = true) :
    l = ps.foldl Location.next l₀ ∧ ps.foldlM fs'.step? l₀ = some l := by
  induction ps generalizing l₀ with
  | nil => exact ⟨(Option.some.inj h).symm, h⟩
  | cons part rest ih =>
    rw [List.foldlM_cons] at h ⊢
    obtain ⟨l₁, hstep, hrest⟩ := Option.bind_eq_some_iff.1 h
    unfold step? at hstep
    split at hstep
    · rename_i hpassable
      rw [Bool.and_eq_true] at hpassable
      obtain rfl := Option.some.inj hstep
      have hstep' : fs'.step? l₀ part = some (l₀.next part) := by
        rw [step?, hdir l₀ hpassable.1, hpassable.2]
        rfl
      rw [hstep']
      exact ih hrest
    · cases hstep

theorem locate?_eq_some (h : fs.locate? path = some l)
    (hdir : ∀ l, fs.isDirectory l = true → fs'.isDirectory l = true) :
    l = Path.destination path ∧ fs'.locate? path = some l := by
  unfold locate? at h ⊢
  split at h
  · rename_i hvalid
    rw [if_pos hvalid]
    exact foldlM_step? h hdir
  · cases h

def withText (fs : Files) (l : Location) (text : String) : Files :=
  { texts := fs.texts.insert l.key text }

def moved (fs : Files) (l place : Location) (text : String) : Files :=
  { texts := (fs.texts.erase l.key).insert place.key text }

theorem isDirectory_withText (hl : fs.isDirectory l = true) (place : Location) (text : String) :
    (fs.withText place text).isDirectory l = true := by
  refine isDirectory_mono (fun front key hkey hprefix => ⟨key, ?_, hprefix⟩) hl
  rw [withText, OrderedMap.contains_insert, hkey, Bool.or_true]

/-- Where directories are does not hang on the text that is put. -/
theorem isDirectory_withText_congr (hl : (fs.withText place text).isDirectory l = true)
    (text' : String) : (fs.withText place text').isDirectory l = true := by
  refine isDirectory_mono (fun front key hkey hprefix => ⟨key, ?_, hprefix⟩) hl
  rw [withText, OrderedMap.contains_insert] at hkey ⊢
  exact hkey

theorem contains_moved (key : String) : (fs.moved l place text).texts.contains key =
    (decide (key = place.key) || (decide (key ≠ l.key) && fs.texts.contains key)) := by
  rw [moved, OrderedMap.contains_insert, OrderedMap.contains_erase]

/-- Directories are kept when a text is moved to a place in the same directories. -/
theorem isDirectory_moved {source : Location}
    (hinside : ∀ front, front ++ ['/'] <+: source.key.toList → front ++ ['/'] <+: place.key.toList)
    (hl : fs.isDirectory l = true) : (fs.moved source place text).isDirectory l = true := by
  refine isDirectory_mono (fun front key hkey hprefix => ?_) hl
  by_cases hsource : key = source.key
  · refine ⟨place.key, ?_, hinside front (hsource ▸ hprefix)⟩
    rw [contains_moved, decide_eq_true rfl, Bool.true_or]
  · refine ⟨key, ?_, hprefix⟩
    rw [contains_moved, decide_eq_true hsource, hkey, Bool.true_and, Bool.or_true]

/-- A text that is moved to a place makes no directory of it. -/
theorem isDirectory_moved_place (h : fs.isDirectory place = false) :
    (fs.moved l place text).isDirectory place = false := by
  rw [Bool.eq_false_iff] at h ⊢
  refine fun hdir => h (isDirectory_iff.2 ?_)
  refine (isDirectory_iff.1 hdir).imp_right (Or.imp_right ?_)
  rintro ⟨key, hkey, hprefix⟩
  rw [contains_moved, Bool.or_eq_true, Bool.and_eq_true, decide_eq_true_eq] at hkey
  rcases hkey with rfl | ⟨-, hkey⟩
  · have hlength := hprefix.length_le
    rw [List.length_append, List.length_singleton] at hlength
    exact absurd hlength (Nat.not_succ_le_self _)
  · exact ⟨key, hkey, hprefix⟩

theorem write?_of_locate? (h : fs.locate? path = some l) (hfree : fs.isDirectory l = false)
    (text : String) : fs.write? path text = some (fs.withText l text) := by
  unfold write?
  rw [h]
  exact if_neg (Bool.eq_false_iff.1 hfree)

/-- A text is written where the path leads, if that is no directory. -/
theorem write?_eq_some {written : Files} (h : fs.write? path text = some written) :
    ∃ l, fs.locate? path = some l ∧ fs.isDirectory l = false ∧ written = fs.withText l text := by
  obtain ⟨l, hl, hwritten⟩ := Option.bind_eq_some_iff.1 h
  split at hwritten
  · cases hwritten
  · rename_i hdir
    exact ⟨l, hl, Bool.eq_false_iff.2 hdir, (Option.some.inj hwritten).symm⟩

theorem rename?_of_locate? {source target : String} (hsource : fs.locate? source = some l)
    (htext : fs.texts.get? l.key = some text) (htarget : fs.locate? target = some place)
    (hfree : fs.isDirectory place = false) :
    fs.rename? source target = some (fs.moved l place text) := by
  unfold rename?
  rw [hsource, htarget]
  dsimp only [bind, Option.bind]
  rw [htext]
  exact if_neg (Bool.eq_false_iff.1 hfree)

/-- A file is renamed when a text is found under the one path, and the other leads to a place that
    is no directory. -/
theorem rename?_eq_some {source target : String} {renamed : Files}
    (h : fs.rename? source target = some renamed) :
    ∃ l text place, fs.locate? source = some l ∧ fs.texts.get? l.key = some text ∧
      fs.locate? target = some place ∧ fs.isDirectory place = false := by
  obtain ⟨l, hl, h⟩ := Option.bind_eq_some_iff.1 h
  obtain ⟨text, htext, h⟩ := Option.bind_eq_some_iff.1 h
  obtain ⟨place, hplace, h⟩ := Option.bind_eq_some_iff.1 h
  split at h
  · cases h
  · rename_i hdir
    exact ⟨l, text, place, hl, htext, hplace, Bool.eq_false_iff.2 hdir⟩

/-- What saving comes to, when the text can take the place of the file: it is written beside the
    place of the file, in the same directories, and moved there. -/
theorem save_eq_moved (h : fs.disk.canReplace path = true) (text : String) :
    ∃ beside place, fs.save path text = (fs.withText beside text).moved beside place text ∧
      (fs.withText beside text).locate? path = some place ∧
      (fs.withText beside text).isDirectory place = false ∧
      ∀ front, front ++ ['/'] <+: beside.key.toList → front ++ ['/'] <+: place.key.toList := by
  obtain ⟨replaced, hreplaced⟩ := Option.isSome_iff_exists.1 h
  obtain ⟨temporary, htemporary, hreplaced⟩ := Option.bind_eq_some_iff.1 hreplaced
  obtain ⟨blank, hblank, hreplaced⟩ := Option.bind_eq_some_iff.1 hreplaced
  obtain ⟨beside, hbeside, hnoDir, rfl⟩ := write?_eq_some hblank
  obtain ⟨source, -, place, hsource, -, hplace, hfree⟩ := rename?_eq_some hreplaced
  obtain ⟨hbesideEq, hbeside'⟩ :=
    locate?_eq_some hbeside fun _ hl => isDirectory_withText hl beside text
  obtain ⟨hplaceEq, hplace'⟩ :=
    locate?_eq_some hplace fun _ hl => isDirectory_withText_congr hl text
  have hfree' : (fs.withText beside text).isDirectory place = false :=
    Bool.eq_false_iff.2 fun hl => Bool.eq_false_iff.1 hfree (isDirectory_withText_congr hl "")
  refine ⟨beside, place, ?_, hplace', hfree', fun front hprefix => ?_⟩
  · have hwrite := write?_of_locate? hbeside hnoDir text
    have hrename := rename?_of_locate? hbeside' (OrderedMap.get?_insert_self _ _ _) hplace' hfree'
    unfold save
    rw [htemporary]
    dsimp only
    rw [hwrite]
    dsimp only
    rw [hrename]
    rfl
  · obtain ⟨dir, name, name', hslash, hname, hname'⟩ := Path.temporary?_eq_some htemporary
    rw [hbesideEq, hname'] at hprefix
    rw [hplaceEq, hname]
    exact Location.prefix_key_inside hslash hprefix name

/-- **A text that can take the place of a file is found there**, once it is saved. -/
theorem look_save (h : fs.disk.canReplace path = true) (text : String) :
    (fs.save path text).look path = .file text := by
  obtain ⟨beside, place, hsaved, hplace, hfree, hinside⟩ := save_eq_moved h text
  have hplaceSaved : ((fs.withText beside text).moved beside place text).locate? path = some place :=
    (locate?_eq_some hplace fun _ hl => isDirectory_moved hinside hl).2
  have htext : ((fs.withText beside text).moved beside place text).texts.get? place.key = some text :=
    OrderedMap.get?_insert_self _ _ _
  rw [hsaved]
  unfold look
  rw [hplaceSaved]
  dsimp only
  rw [isDirectory_moved_place hfree, htext]
  rfl

/-- Whether a text can take the place of a file does not hang on the text. -/
theorem canReplace_of_replace? (h : fs.replace? path text = some fs') :
    fs.disk.canReplace path = true := by
  obtain ⟨temporary, htemporary, hreplaced⟩ := Option.bind_eq_some_iff.1 h
  obtain ⟨written, hwritten, hrenamed⟩ := Option.bind_eq_some_iff.1 hreplaced
  obtain ⟨beside, hbeside, hnoDir, rfl⟩ := write?_eq_some hwritten
  obtain ⟨_, _, place, -, -, hplace, hfree⟩ := rename?_eq_some hrenamed
  have hbeside' := (locate?_eq_some hbeside fun _ hl => isDirectory_withText hl beside "").2
  have hplace' := (locate?_eq_some hplace fun _ hl => isDirectory_withText_congr hl "").2
  have hfree' : (fs.withText beside "").isDirectory place = false :=
    Bool.eq_false_iff.2 fun hl => Bool.eq_false_iff.1 hfree (isDirectory_withText_congr hl text)
  have hrename := rename?_of_locate? hbeside' (OrderedMap.get?_insert_self _ _ _) hplace' hfree'
  show (fs.replace? path "").isSome = true
  unfold replace?
  rw [htemporary]
  dsimp only [bind, Option.bind]
  rw [write?_of_locate? hbeside hnoDir]
  dsimp only
  rw [hrename]
  rfl

theorem save_of_replace? (h : fs.replace? path text = some fs') : fs.save path text = fs' := by
  obtain ⟨temporary, htemporary, hreplaced⟩ := Option.bind_eq_some_iff.1 h
  obtain ⟨written, hwritten, hrenamed⟩ := Option.bind_eq_some_iff.1 hreplaced
  unfold save
  rw [htemporary]
  dsimp only
  rw [hwritten]
  dsimp only
  rw [hrenamed, Option.getD_some]

theorem look_of_replace? (h : fs.replace? path text = some fs') : fs'.look path = .file text := by
  rw [← save_of_replace? h]
  exact look_save (canReplace_of_replace? h) text

end Files

end Hotspot

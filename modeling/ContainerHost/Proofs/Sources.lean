import ContainerHost.Proofs.Names
/-!
# Where sources look

A directory has a module in one of two files, and a registry at one address; either checks the name
before it does anything with it. What a directory does with a disk is a `Search`, in which every look
at the disk is a step that names its path, so that a search depends on the paths of its looks and on
no other (`Search.on_congr`). The search of a directory (`visit`) goes to full paths, as they are
joined from the directory and the file, and finds what the directory gives (`fetch_directory`).

What is proved:
  - a name that is rejected is looked for nowhere, whatever it is (`staysBelow`, `asksOnly`);
  - for a valid name a directory looks at two entries of its own, at the second only if the first is
    no file, and a registry is asked once, for one address;
  - two valid names have no path and no address in common (`apart`).
-/

namespace ContainerHost

theorem checkName_refused {name reason : String} (h : validateName name = .error reason) :
    Source.checkName name = .error (Source.failed name reason) := by
  unfold Source.checkName
  rw [h]

theorem ValidName.checkName {name : String} (h : ValidName name) :
    Source.checkName name = .ok () := by
  unfold Source.checkName
  rw [show validateName name = .ok () from h]

/-! ## Searches -/

/-- What is asked about a path: whether a file is there, how large it is, and what it holds. -/
inductive Glance where
  | isFile
  | size
  | bytes
  deriving DecidableEq, Repr

/-- A program that gets to a disk by looks only. A look is at a path, and the program goes on with
the file that is there. -/
inductive Search (α : Type) where
  | done (a : α)
  | look (what : Glance) (path : String) (next : Option Blob → Search α)

namespace Search

variable {α : Type} {disk disk' : String → Option Blob}

def on (disk : String → Option Blob) : Search α → α × List (Glance × String)
  | .done a => (a, [])
  | .look what path next =>
    let (a, looks) := (next (disk path)).on disk
    (a, (what, path) :: looks)

/-- On a disk that has the same files where a search looks, it does the same. -/
theorem on_congr {s : Search α} (h : ∀ e ∈ (s.on disk).2, disk' e.2 = disk e.2) :
    s.on disk' = s.on disk := by
  induction s with
  | done a => rfl
  | look what path next ih =>
    have hhere : disk' path = disk path := h _ List.mem_cons_self
    have hnext := ih (disk path) fun e he => h e (List.mem_cons_of_mem _ he)
    simp only [on, hhere, hnext]

end Search

/-! ## Directories -/

namespace Source

/-- What the paths of files in a directory begin with. -/
def below (root : String) : String :=
  match root.toList.getLast? with
  | none | some '/' => root
  | some _ => root ++ "/"

/-- The path of a file as a directory has it. A file that begins with a slash is not in the
directory but where it says itself. -/
def join (root file : String) : String :=
  if file.toList.head? = some '/' then file else below root ++ file

/-- The file is an entry of the directory itself: it leads neither further down nor out of it. -/
def IsEntry (file : String) : Prop := '/' ∉ file.toList ∧ file ∉ ["", ".", ".."]

theorem join_of_isEntry (root : String) {file : String} (h : IsEntry file) :
    join root file = below root ++ file := by
  have hhead : file.toList.head? ≠ some '/' := fun heq => h.1 (List.mem_of_head? heq)
  exact if_neg hhead

def gone : Error := .io "No such file or directory (os error 2)"

/-- Takes the file at a path, if it is not too large. -/
def take (path : String) : Search (Except Error Blob) :=
  .look .size path fun
    | none => .done (.error gone)
    | some b =>
      match checkSize b.size with
      | .error e => .done (.error e)
      | .ok () => .look .bytes path fun
        | none => .done (.error gone)
        | some b => .done (.ok b)

def takeFirst (missing : Error) : List String → Search (Except Error Blob)
  | [] => .done (.error missing)
  | path :: paths => .look .isFile path fun
    | none => takeFirst missing paths
    | some _ => take path

/-- How a directory gets to a module. -/
def visit (root name : String) : Search (Except Error Blob) :=
  match checkName name with
  | .error e => .done (.error e)
  | .ok () => takeFirst (failed name s!"no module file for '{name}' in {root}")
      ((candidates name).map (join root))

section

variable {disk : String → Option Blob} {files : Table Blob} {root name path : String}
  {missing : Error}

theorem on_take {b : Blob} (h : disk path = some b) :
    ((take path).on disk).1 = (checkSize b.size).map fun () => b := by
  simp only [take, Search.on, h]
  cases checkSize b.size with
  | error e => rfl
  | ok u =>
    simp only [Search.on, h]
    rfl

theorem looks_take {e : Glance × String} (he : e ∈ ((take path).on disk).2) : e.2 = path := by
  simp only [take, Search.on] at he
  cases hfile : disk path with
  | none =>
    rw [hfile] at he
    exact congrArg Prod.snd (List.mem_singleton.mp he)
  | some b =>
    simp only [hfile] at he
    cases hsize : checkSize b.size with
    | error e =>
      rw [hsize] at he
      exact congrArg Prod.snd (List.mem_singleton.mp he)
    | ok u =>
      simp only [hsize, Search.on, hfile, List.mem_cons, List.not_mem_nil, or_false] at he
      rcases he with rfl | rfl
      · rfl
      · rfl

theorem on_takeFirst (missing : Error) {l : List String}
    (h : ∀ file ∈ l, files.get? file = disk (join root file)) :
    ((takeFirst missing (l.map (join root))).on disk).1 =
      match l.findSome? files.get? with
      | none => .error missing
      | some b => (checkSize b.size).map fun () => b := by
  induction l with
  | nil => rfl
  | cons file l ih =>
    have hrest := ih fun file hfile => h file (List.mem_cons_of_mem _ hfile)
    simp only [List.map_cons, takeFirst, Search.on, List.findSome?_cons,
      h file List.mem_cons_self]
    cases hfile : disk (join root file) with
    | none => exact hrest
    | some b => exact on_take hfile

/-- A path is only looked at if there is no file at those before it. -/
theorem looks_takeFirst {paths : List String} {e : Glance × String}
    (he : e ∈ ((takeFirst missing paths).on disk).2) :
    ∃ before after, paths = before ++ e.2 :: after ∧ ∀ p ∈ before, disk p = none := by
  induction paths with
  | nil => cases he
  | cons path paths ih =>
    simp only [takeFirst, Search.on, List.mem_cons] at he
    rcases he with rfl | he
    · exact ⟨[], paths, rfl, fun _ hp => nomatch hp⟩
    · cases hfile : disk path with
      | none =>
        rw [hfile] at he
        obtain ⟨before, after, rfl, hbefore⟩ := ih he
        refine ⟨path :: before, after, rfl, fun p hp => ?_⟩
        rcases List.mem_cons.mp hp with rfl | hp
        · exact hfile
        · exact hbefore p hp
      | some b =>
        rw [hfile] at he
        rw [looks_take he]
        exact ⟨[], paths, rfl, fun _ hp => nomatch hp⟩

/-- What a directory gives is what its search finds on a disk that has its files. -/
theorem fetch_directory (h : ∀ file ∈ candidates name, files.get? file = disk (join root file))
    (net : Http.Network) :
    (Source.directory root files).fetch name net = (((visit root name).on disk).1, net) := by
  have hfirst := on_takeFirst (failed name s!"no module file for '{name}' in {root}") h
  simp only [fetch, visit]
  cases checkName name with
  | error e => rfl
  | ok u => exact congrArg (·, net) hfirst.symm

end

/-- A file of a valid name, with a suffix behind a dot, is an entry. -/
theorem isEntry_of_valid {name : String} (h : ValidName name) {suffix : String}
    (hsuffix : '/' ∉ suffix.toList) (hlong : 2 < suffix.toList.length) :
    IsEntry (name ++ suffix) := by
  have hslash : '/' ∉ name.toList := h.notMem (by decide +kernel)
  refine ⟨?_, ?_⟩
  · rw [String.toList_append, List.mem_append]
    exact not_or.mpr ⟨hslash, hsuffix⟩
  · intro hmem
    have hlength : (name ++ suffix).toList.length ≤ 2 := by
      simp only [List.mem_cons, List.not_mem_nil, or_false] at hmem
      rcases hmem with heq | heq | heq <;> rw [heq] <;> decide
    rw [String.toList_append, List.length_append] at hlength
    omega

theorem isEntry_candidates {name file : String} (h : ValidName name)
    (hfile : file ∈ candidates name) :
    IsEntry file := by
  simp only [candidates, List.mem_cons, List.not_mem_nil, or_false] at hfile
  rcases hfile with rfl | rfl
  · exact isEntry_of_valid h (by decide) (by decide)
  · exact isEntry_of_valid h (by decide) (by decide)

/-- A directory keeps to its own entries when it looks for the module of a name: it does not look at
all if the name is rejected, and at no other path than that of the first file, and of the second if
the first is not there. -/
structure StaysBelow (root name : String) : Prop where
  follows : ∀ disk files, (∀ file ∈ candidates name, files.get? file = disk (join root file)) →
    ∀ net, (Source.directory root files).fetch name net = (((visit root name).on disk).1, net)
  refused : ∀ reason, validateName name = .error reason →
    visit root name = .done (.error (failed name reason)) ∧
    ∀ files net, (Source.directory root files).fetch name net = (.error (failed name reason), net)
  looks : ValidName name → ∀ disk, ∀ e ∈ ((visit root name).on disk).2,
    e.2 = below root ++ (name ++ ".wasm") ∨
    e.2 = below root ++ (name ++ ".wat") ∧ disk (below root ++ (name ++ ".wasm")) = none
  entries : ValidName name → ∀ file ∈ candidates name,
    IsEntry file ∧ join root file = below root ++ file

theorem looks_visit {root name : String} (h : ValidName name) (disk : String → Option Blob)
    {e : Glance × String} (he : e ∈ ((visit root name).on disk).2) :
    e.2 = below root ++ (name ++ ".wasm") ∨
    e.2 = below root ++ (name ++ ".wat") ∧ disk (below root ++ (name ++ ".wasm")) = none := by
  have hpaths : (candidates name).map (join root) =
      [below root ++ (name ++ ".wasm"), below root ++ (name ++ ".wat")] := by
    have hjoin (file : String) (hfile : file ∈ candidates name) :
        join root file = below root ++ file :=
      join_of_isEntry root (isEntry_candidates h hfile)
    simp only [candidates, List.map_cons, List.map_nil] at hjoin ⊢
    rw [hjoin _ List.mem_cons_self, hjoin _ (List.mem_cons_of_mem _ List.mem_cons_self)]
  simp only [visit, h.checkName, hpaths] at he
  obtain ⟨before, after, hsplit, hbefore⟩ := looks_takeFirst he
  rcases before with _ | ⟨first, _ | ⟨second, before⟩⟩
  · exact .inl (List.cons.inj hsplit).1.symm
  · obtain ⟨rfl, hrest⟩ := List.cons.inj hsplit
    exact .inr ⟨(List.cons.inj hrest).1.symm, hbefore _ List.mem_cons_self⟩
  · have hlength := congrArg List.length hsplit
    simp only [List.cons_append, List.length_cons, List.length_append, List.length_nil] at hlength
    omega

theorem staysBelow (root name : String) : StaysBelow root name where
  follows _ _ := fetch_directory
  refused reason h := by
    constructor
    · unfold visit
      rw [checkName_refused h]
    · intro files net
      simp only [fetch, checkName_refused h]
      rfl
  looks h disk _ he := looks_visit h disk he
  entries h _ hfile :=
    have hentry := isEntry_candidates h hfile
    ⟨hentry, join_of_isEntry root hentry⟩

end Source

/-! ## Registries -/

namespace Http

theorem toList_trimSlashes (url : String) :
    (trimSlashes url).toList = (url.toList.reverse.dropWhile (· = '/')).reverse := by
  unfold trimSlashes
  rw [String.toList_ofList]

theorem getLast?_trimSlashes (url : String) : (trimSlashes url).toList.getLast? ≠ some '/' := by
  rw [toList_trimSlashes, List.getLast?_reverse]
  intro hslash
  have hnot := List.head?_dropWhile_not (fun c => decide (c = '/')) url.toList.reverse
  rw [hslash] at hnot
  exact absurd hnot (by decide)

/-- Nothing but slashes is taken away. -/
theorem trimSlashes_append (url : String) :
    ∃ n, url = trimSlashes url ++ String.ofList (List.replicate n '/') := by
  have hslashes : ∀ c ∈ (url.toList.reverse.takeWhile (· = '/')).reverse, c = '/' := fun c hc =>
    of_decide_eq_true (List.all_eq_true.mp List.all_takeWhile c (List.mem_reverse.mp hc))
  refine ⟨(url.toList.reverse.takeWhile (· = '/')).reverse.length, String.toList_inj.mp ?_⟩
  rw [String.toList_append, String.toList_ofList, toList_trimSlashes,
    ← List.eq_replicate_of_mem hslashes, ← List.reverse_append, List.takeWhile_append_dropWhile,
    List.reverse_reverse]

end Http

/-- A registry that is found at an address asks for the module of a name nowhere else than at its own
address, and not at all if the name is rejected: what it gives depends on the outcome of one request,
and that is all that the network sees of it. -/
structure Registry.AsksOnly (url : String) (timeout : Duration) (name : String) : Prop where
  trimmed : (∃ n, url = Http.trimSlashes url ++ String.ofList (List.replicate n '/')) ∧
    (Http.trimSlashes url).toList.getLast? ≠ some '/'
  refused : ∀ reason, validateName name = .error reason → ∀ net,
    (Source.registry (.ofUrl url timeout)).fetch name net = (.error (Source.failed name reason), net)
  asks : ValidName name → ∃ answer : Http.Outcome → Except Error Blob, ∀ net,
    (Source.registry (.ofUrl url timeout)).fetch name net = Prod.map answer id
      (net.exchange timeout ⟨.get, Http.trimSlashes url ++ "/containers/" ++ name, none, some agent⟩)
  plain : ValidName name → ∀ c ∈ ['/', '.', '%', '?', '#'], c ∉ name.toList

def Registry.answer (r : Registry) (name : String) : Http.Outcome → Except Error Blob
  | .unreachable => .error (Source.failed name (Http.unreachableText (r.moduleUrl name)))
  | .timedOut => .error (.timeout s!"download module {name}" r.timeout)
  | .response response => Source.receive name response

theorem Registry.request_ofUrl (url : String) (timeout : Duration) (name : String) :
    (ofUrl url timeout).request name =
      ⟨.get, Http.trimSlashes url ++ "/containers/" ++ name, none, some agent⟩ := by
  have hpath : "/" ++ Limits.registryPath ++ "/" = "/containers/" := by decide
  simp only [request, moduleUrl, ofUrl, ← hpath, String.append_assoc]

theorem Registry.asksOnly (url : String) (timeout : Duration) (name : String) :
    AsksOnly url timeout name where
  trimmed := ⟨Http.trimSlashes_append url, Http.getLast?_trimSlashes url⟩
  refused reason h net := by
    simp only [Source.fetch, checkName_refused h]
  asks h := by
    refine ⟨(ofUrl url timeout).answer name, fun net => ?_⟩
    have htimeout : (ofUrl url timeout).timeout = timeout := rfl
    simp only [Source.fetch, h.checkName, Source.download, request_ofUrl, htimeout]
    generalize net.exchange timeout _ = exchanged
    obtain ⟨outcome, net⟩ := exchanged
    cases outcome <;> rfl
  plain h c hc := by
    have hnone : ['/', '.', '%', '?', '#'].all (isNameChar · = false) = true := by decide +kernel
    exact h.notMem (of_decide_eq_true (List.all_eq_true.mp hnone c hc))

/-! ## Different names -/

/-- Two names have no path in common below any directory, and no address at any registry. -/
structure Source.Apart (name name' : String) : Prop where
  paths : ∀ root, ∀ file ∈ candidates name, ∀ file' ∈ candidates name',
    join root file ≠ join root file'
  addresses : ∀ r : Registry, r.moduleUrl name ≠ r.moduleUrl name'

/-- What stands before the first dot in the file of a valid name is the name. -/
theorem Source.takeWhile_candidate {name file : String} (h : ValidName name)
    (hfile : file ∈ candidates name) : file.toList.takeWhile (· ≠ '.') = name.toList := by
  have hdot : '.' ∉ name.toList := h.notMem (by decide +kernel)
  simp only [candidates, List.mem_cons, List.not_mem_nil, or_false] at hfile
  rcases hfile with rfl | rfl
  · rw [String.toList_append]
    exact takeWhile_append_cons hdot _
  · rw [String.toList_append]
    exact takeWhile_append_cons hdot _

theorem Source.apart {name name' : String} (h : ValidName name) (h' : ValidName name')
    (hne : name ≠ name') : Apart name name' where
  paths root file hfile file' hfile' heq := by
    rw [join_of_isEntry root (isEntry_candidates h hfile),
      join_of_isEntry root (isEntry_candidates h' hfile')] at heq
    have hsame : file = file' := by
      have hlists := congrArg String.toList heq
      rw [String.toList_append, String.toList_append] at hlists
      exact String.toList_inj.mp (List.append_cancel_left hlists)
    refine hne (String.toList_inj.mp ?_)
    calc name.toList = file.toList.takeWhile (· ≠ '.') := (takeWhile_candidate h hfile).symm
      _ = file'.toList.takeWhile (· ≠ '.') := by rw [hsame]
      _ = name'.toList := takeWhile_candidate h' hfile'
  addresses r heq := by
    have hlists := congrArg String.toList heq
    simp only [Registry.moduleUrl, String.toList_append] at hlists
    exact hne (String.toList_inj.mp (List.append_cancel_left hlists))

end ContainerHost

import CodeNav.Program.Child
import CodeNav.Proofs.Checkout.Soundness
import CodeNav.Proofs.Files.Walk

/-! # Whether the child sees what the host sees

The child works in the root of the checkout and reads the path of that root, and the path of the
socket, from there. Where both paths lead alike from the two directories, the child serves what a
direct search of the host would find. A relative path in general does not.
-/

namespace CodeNav

variable {tree : FileTree} {names place : List String} {path root : String}

theorem Settings.load_seenFrom (h : tree.Agrees names root) (hroot : root ≠ "")
    (environment : Environment) :
    load (tree.seenFrom names) environment root = load tree environment root := by
  have hpath : tree.Agrees names (Settings.path root) :=
    (h.join hroot directoryName).join (Path.join_ne_empty hroot) fileName
  have hfile : ofFile (tree.seenFrom names) root = ofFile tree root := by
    simp only [ofFile, hpath.exists?_eq, hpath.read_eq]
  rw [load, load, hfile]

theorem Checkout.Scanner.scan_seenFrom (scanner : Scanner) (h : tree.Agrees names scanner.root)
    (hroot : scanner.root ≠ "") (isCancelled : Group → Bool) (groups : List Group) :
    scanner.scan (tree.seenFrom names) isCancelled groups =
      scanner.scan tree isCancelled groups := by
  have hgroup (group : Group) :
      scanner.scanGroup (tree.seenFrom names) group = scanner.scanGroup tree group := by
    unfold scanGroup
    cases hpath : localPath? scanner.root group.path with
    | none => rfl
    | some path =>
      have hagrees : tree.Agrees names path := by
        rw [(localPath?_eq_some_iff.mp hpath).2.2]
        exact h.join hroot _
      simp only [hagrees.isFile_eq, hagrees.read_eq]
  simp only [scan, hgroup]

theorem Direct.backend_seenFrom {direct : Direct} (h : tree.Agrees names direct.root)
    (hroot : direct.root ≠ "") (source : Index.Source) :
    direct.backend source (tree.seenFrom names) = direct.backend source tree := by
  have hsearch : direct.search source (tree.seenFrom names) = direct.search source tree := by
    funext query
    have hplace : direct.place (tree.seenFrom names) query = direct.place tree query := by
      funext response
      rw [place, place, Checkout.Scanner.scan_seenFrom _ h hroot]
    rw [search, search, hplace]
  rw [backend, backend, hsearch]

namespace Channel

theorem connectFailure?_eq_none_iff :
    connectFailure? tree (some place) path = none ↔ socketPlace tree path = .ok place := by
  unfold connectFailure?
  cases h : socketPlace tree path with
  | error cause => simp
  | ok found =>
    by_cases heq : place = found
    · simp [heq]
    · have hne : found ≠ place := fun h => heq h.symm
      simp only [Option.some.injEq, heq, if_false, Except.ok.injEq, hne, iff_false]
      split <;> simp

theorem socketPlace_eq_ok_iff :
    socketPlace tree path = .ok place ↔
      Char.ofNat 0 ∉ path.toList ∧ path.utf8ByteSize ≤ maxSocketPath ∧
        tree.locate path = .ok place := by
  unfold socketPlace
  by_cases hnull : Char.ofNat 0 ∈ path.toList
  · simp [hnull]
  · by_cases hlong : maxSocketPath < path.utf8ByteSize
    · simp [hnull, hlong, Nat.not_le.mpr hlong]
    · cases tree.locate path <;>
        simp [hnull, hlong, Nat.not_lt.mp hlong, Except.mapError]

theorem socketPlace_seenFrom_iff (h : socketPlace tree path = .ok place) :
    socketPlace (tree.seenFrom names) path = .ok place ↔ tree.LeadsAlike names path := by
  obtain ⟨hnull, hshort, hlocate⟩ := socketPlace_eq_ok_iff.mp h
  rw [socketPlace_eq_ok_iff, ← FileTree.locate_seenFrom_iff hlocate]
  exact ⟨fun hseen => hseen.2.2, fun hseen => ⟨hnull, hshort, hseen⟩⟩

end Channel

namespace Program

open CommandLine

variable {world inner : World} {repository : Repository}

def World.seenFrom (world : World) (names : List String) : World :=
  { world with tree := world.tree.seenFrom names }

@[simp] theorem World.seenFrom_tree (world : World) (names : List String) :
    (world.seenFrom names).tree = world.tree.seenFrom names := rfl

@[simp] theorem World.seenFrom_environment (world : World) (names : List String) :
    (world.seenFrom names).environment = world.environment := rfl

theorem childWorld?_eq_some_iff :
    childWorld? world repository = some inner ↔
      ∃ names, world.tree.find repository.root = .ok (names, .directory) ∧
        inner = world.seenFrom names := by
  unfold childWorld? Bridge.childDirectory
  split
  · rename_i names hfind
    simp [hfind, World.seenFrom, FileTree.seenFrom, eq_comm]
  · rename_i hnone
    simp only [reduceCtorEq, false_iff, not_exists, not_and]
    intro names hfind
    exact absurd hfind (hnone names)

theorem directBackend_seenFrom (h : world.tree.Agrees names repository.root)
    (hroot : repository.root ≠ "") (settings : Settings) :
    directBackend (world.seenFrom names) repository settings =
      directBackend world repository settings :=
  Direct.backend_seenFrom h hroot _

/-- A child that reaches its host serves what a direct search with its own settings finds. -/
theorem serve_of_socketPlace (world : World) (options : ChildOptions)
    (h : Channel.socketPlace world.tree
      (Channel.socketPath world.environment options.channel) = .ok place) :
    serve world options (some place) =
      ((Settings.load world.tree world.environment options.root).mapError fun cause =>
        Error.failed cause.chain).map (directBackend world options.repository) := by
  have hconnect := Channel.connectFailure?_eq_none_iff.mpr h
  simp only [serve, hconnect]
  cases Settings.load world.tree world.environment options.root <;> rfl

/-- A child without a root is not started. A child that is started takes for the root, and for the
socket, what its host takes for them exactly if their paths lead alike from both directories. If
both do, it reads the same settings and serves what a direct search of its host finds. -/
theorem child_agrees_iff (world : World) (repository : Repository) (channel : String) :
    (repository.root = "" → childWorld? world repository = none) ∧
      ∀ inner place, childWorld? world repository = some inner →
        Channel.socketPlace world.tree (Channel.socketPath world.environment channel) = .ok place →
        (inner.tree.locate repository.root = world.tree.locate repository.root ↔
          world.tree.LeadsAlike inner.tree.workingDirectory repository.root) ∧
        (Channel.socketPlace inner.tree (Channel.socketPath inner.environment channel) =
            .ok place ↔
          world.tree.LeadsAlike inner.tree.workingDirectory
            (Channel.socketPath world.environment channel)) ∧
        (inner.tree.locate repository.root = world.tree.locate repository.root →
          Channel.socketPlace inner.tree (Channel.socketPath inner.environment channel) =
            .ok place →
          serve inner (Bridge.childOptions repository channel) (some place) =
            ((Settings.load world.tree world.environment repository.root).mapError fun cause =>
              Error.failed cause.chain).map (directBackend world repository)) := by
  refine ⟨fun hroot => ?_, fun inner place hchild hbound => ?_⟩
  · rw [childWorld?, Bridge.childDirectory, hroot]
    rfl
  · obtain ⟨names, hfind, rfl⟩ := childWorld?_eq_some_iff.mp hchild
    have hlocate := FileTree.locate_of_find hfind
    simp only [World.seenFrom_tree, World.seenFrom_environment, hlocate]
    refine ⟨FileTree.locate_seenFrom_iff hlocate, Channel.socketPlace_seenFrom_iff hbound, ?_⟩
    intro hsame hplace
    have hroot : repository.root ≠ "" := FileTree.ne_empty_of_locate hlocate
    have hagrees := FileTree.agrees_of_locate hlocate hsame
    -- Below the root, the settings and the files are the same from both directories.
    rw [serve_of_socketPlace (world.seenFrom names) (Bridge.childOptions repository channel) hplace]
    have hbackend : directBackend (world.seenFrom names) repository =
        directBackend world repository := funext (directBackend_seenFrom hagrees hroot)
    have hload := Settings.load_seenFrom hagrees hroot world.environment
    have hoptions : (Bridge.childOptions repository channel).repository = repository := rfl
    have hoptionsRoot : (Bridge.childOptions repository channel).root = repository.root := rfl
    simp only [World.seenFrom_tree, World.seenFrom_environment, hoptions, hoptionsRoot, hload,
      hbackend]

/-- A checkout with a directory of its own name, beside another directory. -/
def nestedWorld (workingDirectory : List String) : World where
  tree :=
    { entries :=
        [(["tmp"], .directory), (["r"], .directory), (["r", "other"], .directory),
          (["r", "sub"], .directory), (["r", "sub", "sub"], .directory),
          (["r", "sub", "sub", ".fastnav"], .directory),
          (["r", "sub", "sub", ".fastnav", "config.toml"], .directory)]
      workingDirectory }
  environment := []
  network := Http.offline
  now := ⟨0⟩

def nestedRepository (root : String) : Repository :=
  ⟨root, "https://contoso.visualstudio.com/Tools", "Tools", "Widgets"⟩

theorem child_agrees_sibling :
    childWorld? (nestedWorld ["r", "other"]) (nestedRepository "../sub") =
        some (nestedWorld ["r", "sub"]) ∧
      serve (nestedWorld ["r", "sub"]) (Bridge.childOptions (nestedRepository "../sub") "channel")
          (some ["tmp", "channel.sock"]) =
        ((Settings.load (nestedWorld ["r", "other"]).tree [] "../sub").mapError fun cause =>
          Error.failed cause.chain).map
            (directBackend (nestedWorld ["r", "other"]) (nestedRepository "../sub")) := by
  have hchild : childWorld? (nestedWorld ["r", "other"]) (nestedRepository "../sub") =
      some (nestedWorld ["r", "sub"]) := childWorld?_eq_some_iff.mpr ⟨["r", "sub"], rfl, rfl⟩
  have hbound : Channel.socketPlace (nestedWorld ["r", "other"]).tree
      (Channel.socketPath [] "channel") = .ok ["tmp", "channel.sock"] := rfl
  obtain ⟨-, hsocket, hserve⟩ := (child_agrees_iff _ _ "channel").2 _ _ hchild hbound
  exact ⟨hchild, hserve rfl (hsocket.mpr (.inl rfl))⟩

/-- From above the checkout, its path leads the child into the directory of the same name, where the
settings cannot be read. -/
theorem not_child_agrees_below :
    childWorld? (nestedWorld ["r"]) (nestedRepository "sub") =
        some (nestedWorld ["r", "sub"]) ∧
      (nestedWorld ["r", "sub"]).tree.locate "sub" ≠ (nestedWorld ["r"]).tree.locate "sub" ∧
      Settings.load (nestedWorld ["r"]).tree [] "sub" = .ok {} ∧
      Settings.load (nestedWorld ["r", "sub"]).tree [] "sub" =
        .error (.unreadable "sub/.fastnav/config.toml" .isDirectory) := by
  have hlocate : (nestedWorld ["r"]).tree.locate "sub" = .ok ["r", "sub"] := rfl
  refine ⟨childWorld?_eq_some_iff.mpr ⟨["r", "sub"], rfl, rfl⟩, ?_, rfl, rfl⟩
  rw [hlocate]
  intro hsame
  exact FileTree.not_leadsAlike_of_climb_eq_zero hlocate rfl rfl (by decide)
    ((FileTree.locate_seenFrom_iff hlocate).mp hsame)

end Program

end CodeNav

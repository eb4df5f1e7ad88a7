/-! # Resource names

Four names stand for resources that every node has. All other resources that count are scalar:
extended resources such as `nvidia.com/gpu`, huge pages, attachable volumes, and names that hold
the native domain.
-/
namespace NodeRank.ResourceName

def cpu : String := "cpu"
def memory : String := "memory"
def pods : String := "pods"
def ephemeralStorage : String := "ephemeral-storage"

def holds (part : List Char) : List Char → Bool
  | [] => part.isEmpty
  | c :: cs => part.isPrefixOf (c :: cs) || holds part cs

def startsWith (start name : String) : Bool := start.toList.isPrefixOf name.toList

def isPrefixedNative (name : String) : Bool := holds "kubernetes.io/".toList name.toList

/-- Names without a domain and names in which the native domain occurs. -/
def isNative (name : String) : Bool := !name.toList.contains '/' || isPrefixedNative name

/-- Names `domain/local` of resources that somebody else defines; quotas on requests are none. -/
def isExtended (name : String) : Bool :=
  let domain := name.toList.takeWhile (· != '/')
  let rest := (name.toList.dropWhile (· != '/')).drop 1
  !isNative name && !startsWith "requests." name &&
    !domain.isEmpty && !rest.isEmpty && !rest.contains '/'

def isHugePage (name : String) : Bool := startsWith "hugepages-" name

def isAttachableVolume (name : String) : Bool := startsWith "attachable-volumes-" name

/-- Names that are counted one by one next to the four basic resources. -/
def isScalar (name : String) : Bool :=
  isExtended name || isHugePage name || isPrefixedNative name || isAttachableVolume name

/-- Whether a node can say how much of the resource it has. -/
def isSupported (name : String) : Bool :=
  name == cpu || name == memory || name == pods || name == ephemeralStorage || isScalar name

/-- None of the four basic resources has the name of a scalar. -/
theorem ne_basic_of_isScalar {name : String} (h : isScalar name) :
    name ≠ cpu ∧ name ≠ memory ∧ name ≠ pods ∧ name ≠ ephemeralStorage := by
  refine ⟨?_,?_,?_,?_⟩ <;>
  · rintro rfl
    exact absurd h (by decide)

/-- Whether telemetry can say how much of the resource is in use. -/
def isMeasurable (name : String) : Bool := name == cpu || name == memory

example : isScalar "nvidia.com/gpu" ∧ isScalar "hugepages-2Mi" ∧ ¬ isScalar "a/b/c" := by decide
example : ¬ isScalar "requests.example.com/foo" := by decide
example : ¬ isSupported "foo" ∧ isSupported "pods" := by decide

end NodeRank.ResourceName

import TensorPC.Py.IntText
import Mathlib.Algebra.Ring.Int.Defs
import Mathlib.Algebra.BigOperators.Group.List.Basic

namespace TensorPC.Ttfs

/-!
# Tensor managers

A tensor manager holds tensor descriptors and the sizes of their dimensions.  A
descriptor is modelled after its shape text was parsed, with one stride for every
dimension as its constructor has checked.  Numbers are taken from any commutative
ring: the integers, or machine integers of one width.
-/

variable {R : Type} [CommRing R]

/-- A field of an aggregate: a `tl.constexpr`, or a value known at run time only. -/
inductive Field (R : Type)
  | constexpr (number : Int)
  | value (number : R)
  deriving DecidableEq

def Field.isConstexpr : Field R → Bool
  | .constexpr _ => true
  | .value _ => false

def Field.number : Field R → R
  | .constexpr number => (number : R)
  | .value number => number

/-- One dimension of a shape text, `name` or `name->alias`, and its stride. -/
structure Dim (R : Type) where
  name : String
  aliasName : String
  stride : Field R
  deriving DecidableEq

/-- What `ptr` can be besides `None`. -/
inductive Ptr (R : Type)
  | pointer (address : R)
  | tmaDesc
  deriving DecidableEq

/-- `TensorDesc`; `pvStride` lists the names in `_ttfs_pv_stride`. -/
structure TensorDesc (R : Type) where
  ptr : Option (Ptr R)
  dims : List (Dim R)
  pvStride : List String
  deriving DecidableEq

/-- A field of a manager that holds a descriptor.  Its type may be written with an
annotation, `Annotated[TensorDesc, tensor_desc_meta(..)]`. -/
structure TensorField (R : Type) where
  annotated : Bool
  desc : TensorDesc R
  deriving DecidableEq

/-- `TensorManagerBase`: the sizes by name, and the fields with descriptors. -/
structure TensorManager (R : Type) where
  sizes : String → Field R
  tensors : List (TensorField R)

/-! ## Names -/

/-- `off_names`: a list of names, or a text with commas. -/
inductive OffNames
  | names (list : List String)
  | text (letters : Text)

/-- `unify_offset_names`. -/
def unifyOffsetNames : OffNames → List String
  | .names list => list
  | .text letters => (letters.splitOn ',').map fun part => String.ofList (strip part)

namespace TensorDesc

def shapeNames (desc : TensorDesc R) : List String :=
  desc.dims.map Dim.name

def aliasNames (desc : TensorDesc R) : List String :=
  desc.dims.map Dim.aliasName

/-- `filter_sym`. -/
def filterSym (desc : TensorDesc R) (allSymMustExist : Bool) :
    List String → PyResult (List String)
  | [] => .ok []
  | sym :: rest =>
      if sym ∈ desc.aliasNames ∨ sym ∈ desc.shapeNames then
        (desc.filterSym allSymMustExist rest).map (sym :: ·)
      else if allSymMustExist then
        .error (.runtimeError "Symbol not found in shape_sym")
      else
        desc.filterSym allSymMustExist rest

/-- `local_name_to_global`. -/
def localNameToGlobal (desc : TensorDesc R) (name : String) : PyResult String :=
  if name ∈ desc.aliasNames then
    .ok (desc.shapeNames.getD (desc.aliasNames.idxOf name) "")
  else if name ∈ desc.shapeNames then
    .ok name
  else
    .error (.assertionError name)

/-- `get_dim_by_name`; aliases come first here as well. -/
def getDimByName (desc : TensorDesc R) (name : String) : PyResult Nat :=
  if name ∈ desc.aliasNames then
    .ok (desc.aliasNames.idxOf name)
  else if name ∈ desc.shapeNames then
    .ok (desc.shapeNames.idxOf name)
  else
    .error (.assertionError name)

/-- The strides that `__post_init__` spreads over the axes of the passed names. -/
def spreadStrides (desc : TensorDesc R) : PyResult (List (Field R)) := do
  let valueAxes ← desc.pvStride.mapM desc.getDimByName
  let strides := desc.dims.map Dim.stride
  valueAxes.zipIdx.foldlM
    (fun newStrides axis =>
      match strides[axis.2]? with
      | none => .error .indexError
      | some stride => .ok (newStrides.set axis.1 stride))
    (List.replicate desc.dims.length (.constexpr (-1)))

/-- `TensorDesc.__post_init__`, which `dataclasses.replace` runs again. -/
def postInit (desc : TensorDesc R) : PyResult (TensorDesc R) :=
  if desc.pvStride = [] then
    .ok desc
  else
    desc.spreadStrides.map fun newStrides =>
      { desc with
        dims := desc.dims.zipWith (fun dim stride => { dim with stride := stride }) newStrides }

/-- `dataclasses.replace(desc, ptr=ptr)`. -/
def replacePtr (desc : TensorDesc R) (ptr : Option (Ptr R)) : PyResult (TensorDesc R) :=
  { desc with ptr := ptr }.postInit

end TensorDesc

/-! ## Strides and pointers -/

namespace TensorManager

/-- `get_tensor_stride`; an unset stride is the product of the later sizes. -/
def getTensorStride
    (manager : TensorManager R)
    (desc : TensorDesc R)
    (axis : Nat) :
    PyResult (Field R) :=
  match desc.dims[axis]? with
  | none => .error .indexError
  | some dim =>
      match dim.stride with
      | .value stride => .ok (.value stride)
      | .constexpr stride =>
          if stride < 0 then
            let fields := (desc.shapeNames.drop (axis + 1)).map manager.sizes
            let constexprFields := fields.filterMap fun field =>
              match field with
              | .constexpr number => some number
              | .value _ => none
            let nonConstexprFields := fields.filterMap fun field =>
              match field with
              | .constexpr _ => none
              | .value number => some number
            if fields.all Field.isConstexpr then
              .ok (.constexpr constexprFields.prod)
            else
              .ok (.value (nonConstexprFields.prod * (constexprFields.prod : Int)))
          else
            .ok (.constexpr stride)

/-- `get_tensor_stride_by_name`. -/
def getTensorStrideByName
    (manager : TensorManager R)
    (desc : TensorDesc R)
    (dimName : String) :
    PyResult (Field R) := do
  let dimNameUnified ← desc.localNameToGlobal dimName
  let axis ← desc.getDimByName dimNameUnified
  manager.getTensorStride desc axis

/-- The loop of `get_ptr_offset`, which takes names and offsets by position. -/
def addOffsets
    (manager : TensorManager R)
    (desc : TensorDesc R) :
    R → List String → List R → PyResult R
  | offset, [], _ => .ok offset
  | _, _ :: _, [] => .error .indexError
  | offset, name :: names, given :: offsets => do
      let stride ← manager.getTensorStrideByName desc name
      manager.addOffsets desc (offset + stride.number * given) names offsets

/-- `get_ptr_offset`. -/
def getPtrOffset
    (manager : TensorManager R)
    (desc : TensorDesc R)
    (offNames : OffNames)
    (offsets : List R)
    (offsetCanInvalid : Bool) :
    PyResult R := do
  let offNamesFiltered ← desc.filterSym (!offsetCanInvalid) (unifyOffsetNames offNames)
  manager.addOffsets desc 0 offNamesFiltered offsets

/-- `get_offseted_ptr`. -/
def getOffsetedPtr
    (manager : TensorManager R)
    (desc : TensorDesc R)
    (offNames : OffNames)
    (offsets : List R)
    (offsetCanInvalid : Bool) :
    PyResult (Option (Ptr R)) :=
  match desc.ptr with
  | some (.pointer address) => do
      let offset ← manager.getPtrOffset desc offNames offsets offsetCanInvalid
      return some (.pointer (address + offset))
  | _ => .error (.assertionError "Only support pointer tensor desc.")

/-- The frontend that compiles the function. -/
inductive Frontend
  | gluon
  | triton
  deriving DecidableEq

/-- The new descriptor of one field.  The list `all_fields_tuple` is made in the
branch for gluon only, so that the other branch has no such name. -/
def offsetDesc
    (manager : TensorManager R)
    (frontend : Frontend)
    (desc : TensorDesc R)
    (offNames : OffNames)
    (offsets : List R) :
    PyResult (TensorDesc R) :=
  match frontend with
  | .triton => .error (.nameError "all_fields_tuple")
  | .gluon =>
      match desc.ptr with
      | none => desc.replacePtr none
      | some _ => do
          let ptr ← manager.getOffsetedPtr desc offNames offsets true
          desc.replacePtr ptr

/-- What becomes of one field: `get_all_field_keys_with_type` lists the fields whose
type is the class itself, so that fields with an annotation stay. -/
def offsetField
    (manager : TensorManager R)
    (frontend : Frontend)
    (offNames : OffNames)
    (offsets : List R)
    (field : TensorField R) :
    PyResult (TensorField R) :=
  if field.annotated then
    .ok field
  else
    (manager.offsetDesc frontend field.desc offNames offsets).map fun desc =>
      { field with desc := desc }

/-- `offset_all_desc_ptr`. -/
def offsetAllDescPtr
    (manager : TensorManager R)
    (frontend : Frontend)
    (offNames : OffNames)
    (offsets : List R) :
    PyResult (TensorManager R) :=
  (manager.tensors.mapM (manager.offsetField frontend offNames offsets)).map
    fun tensors => { manager with tensors := tensors }

end TensorManager

end TensorPC.Ttfs

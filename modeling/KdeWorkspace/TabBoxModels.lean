import Mathlib.Tactic.Common

/-!
The item models of the window switcher: the list of clients (`ClientModel`) and
the desktops with the clients of each (`DesktopModel`). The index of a client in
the second carries the row of its desktop in its internal identifier.

`AgreesAt` is what a view expects of a model: an index is valid exactly inside
the rows and columns of its parent, knows its parent, and its data is read
inside the lists. Both models agree everywhere but at the row behind the last
desktop and in an empty list of clients (`models_agree_iff`).
-/
namespace KdeWorkspace.TabBoxModels
universe u

/-- `QModelIndex`, with the model it belongs to as a flag. -/
structure QModelIndex where
  row : Int
  column : Int
  internalId : Nat
  hasModel : Bool
deriving Repr, DecidableEq

namespace QModelIndex

def none : QModelIndex := ⟨-1,-1,0,false⟩

def isValid (i : QModelIndex) : Bool := decide (0 ≤ i.row ∧ 0 ≤ i.column ∧ i.hasModel)

end QModelIndex

def createIndex (row column : Int) (internalId : Nat) : QModelIndex := ⟨row,column,internalId,true⟩

/-- What a client answers to the models. -/
structure TabBoxClient (Client : Type u) where
  client : Client
  caption : String
  desktopName : String
  window : Nat
  isMinimized : Bool
  isCloseable : Bool
  isFirstInTabBox : Bool

/-- The display role, the roles from `Qt::UserRole` on, and the others. -/
inductive Role
  | DisplayRole
  | UserRole (offset : Nat)
  | other
deriving Repr, DecidableEq

/-- `m_clientList`; a client that is gone is none. -/
structure ClientModel (Client : Type u) where
  clientList : List (Option (TabBoxClient Client))

/-- The values that the models answer with. -/
inductive QVariant (Client : Type u)
  | invalid
  | string (s : String)
  | client (c : Client)
  | number (n : Int)
  | bool (b : Bool)
  | clientModel (model : ClientModel Client)

/-- The outcome of `data`: a value, or an access outside a list. -/
inductive Data (Client : Type u)
  | value (v : QVariant Client)
  | outside

namespace ClientModel
variable {Client : Type u}

def ClientRole : Role := .UserRole 0
def CaptionRole : Role := .UserRole 1
def DesktopNameRole : Role := .UserRole 2
def WIdRole : Role := .UserRole 5
def MinimizedRole : Role := .UserRole 6
def CloseableRole : Role := .UserRole 7

def columnCount (_ : ClientModel Client) (_parent : QModelIndex) : Int := 1

def rowCount (m : ClientModel Client) (parent : QModelIndex) : Int := if parent.isValid then 0 else m.clientList.length

def parent (_ : ClientModel Client) (_child : QModelIndex) : QModelIndex := .none

def index (m : ClientModel Client) (row column : Int) (parent : QModelIndex) : QModelIndex :=
  if row < 0 ∨ column ≠ 0 ∨ parent.isValid then .none
  else
    let index := row*m.columnCount .none
    if index ≥ m.clientList.length ∧ m.clientList ≠ [] then .none else createIndex row 0 0

/-- `data`. `plainText` escapes a caption that might be rich text. -/
def data (plainText : String → String) (m : ClientModel Client) (index : QModelIndex) (role : Role) : Data Client :=
  if !index.isValid then .value .invalid
  else if m.clientList = [] then .value .invalid
  else if index.row ≥ m.clientList.length then .value .invalid
  else
    match m.clientList[index.row.toNat]? with
    | none => .outside
    | some none => .value .invalid
    | some (some client) =>
      if role = .DisplayRole ∨ role = CaptionRole then .value (.string (plainText client.caption))
      else if role = ClientRole then .value (.client client.client)
      else if role = DesktopNameRole then .value (.string client.desktopName)
      else if role = WIdRole then .value (.number client.window)
      else if role = MinimizedRole then .value (.bool client.isMinimized)
      else if role = CloseableRole then .value (.bool (client.isCloseable && !client.isFirstInTabBox))
      else .value .invalid

/-- `close`: the client that is closed, if any; none for an access outside the list. -/
def close (m : ClientModel Client) (i : Int) : Option (Option (TabBoxClient Client)) :=
  let ind := m.index i 0 .none
  if !ind.isValid then some none else if i < 0 then none else m.clientList[i.toNat]?

end ClientModel

/-- `m_desktopList` and `m_clientModels`, which has a model for every desktop of the list. -/
structure DesktopModel (Client : Type u) where
  desktopList : List Int
  clientModels : Int → ClientModel Client

namespace DesktopModel
variable {Client : Type u}

def DesktopRole : Role := .UserRole 0
def DesktopNameRole : Role := .UserRole 1
def ClientModelRole : Role := .UserRole 2

def columnCount (_ : DesktopModel Client) (_parent : QModelIndex) : Int := 1

/-- The client model of the desktop in a row. -/
def modelAt (m : DesktopModel Client) (row : Int) : Option (ClientModel Client) :=
  if row < 0 then none else (m.desktopList[row.toNat]?).map m.clientModels

def rowCount (m : DesktopModel Client) (parent : QModelIndex) : Int :=
  if parent.isValid then
    if parent.internalId ≠ 0 ∨ parent.row ≥ m.desktopList.length then 0
    else
      match m.modelAt parent.row with
      | some model => model.rowCount .none
      | none => 0
  else m.desktopList.length

def parent (m : DesktopModel Client) (child : QModelIndex) : QModelIndex :=
  if !child.isValid ∨ child.internalId = 0 then .none
  else
    let row : Int := child.internalId-1
    if row ≥ m.desktopList.length then .none else createIndex row 0 0

def index (m : DesktopModel Client) (row column : Int) (parent : QModelIndex) : QModelIndex :=
  if column ≠ 0 then .none
  else if row < 0 then .none
  else if parent.isValid then
    if parent.row < 0 ∨ parent.row ≥ m.desktopList.length ∨ parent.internalId ≠ 0 then .none
    else
      match m.modelAt parent.row with
      | some model =>
        if row ≥ model.rowCount .none then .none else createIndex row column (parent.row.toNat+1)
      | none => .none
  else if row > m.desktopList.length ∨ m.desktopList = [] then .none
  else createIndex row column 0

/-- `data`, with the names of the desktops. -/
def data (desktopName : Int → String) (plainText : String → String) (m : DesktopModel Client) (index : QModelIndex)
    (role : Role) : Data Client :=
  if !index.isValid ∨ index.column ≠ 0 then .value .invalid
  else if (m.parent index).isValid then
    match m.desktopList[index.internalId-1]? with
    | some desktop => (m.clientModels desktop).data plainText ((m.clientModels desktop).index index.row 0 .none) role
    | none => .outside
  else if index.row ≥ m.desktopList.length then .value .invalid
  else
    match m.desktopList[index.row.toNat]? with
    | some desktop =>
      if role = .DisplayRole ∨ role = DesktopNameRole then .value (.string (desktopName desktop))
      else if role = DesktopRole then .value (.number desktop)
      else if role = ClientModelRole then .value (.clientModel (m.clientModels desktop))
      else .value .invalid
    | none => .outside

end DesktopModel

/-- The functions of a model that a view calls. -/
structure ItemModel (Client : Type u) where
  rowCount : QModelIndex → Int
  columnCount : QModelIndex → Int
  index : Int → Int → QModelIndex → QModelIndex
  parent : QModelIndex → QModelIndex
  data : QModelIndex → Role → Data Client

namespace ItemModel
variable {Client : Type u}

/-- The root, and the valid indices that the model gives out below it. -/
inductive Item (m : ItemModel Client) : QModelIndex → Prop
  | root : Item m .none
  | index {p : QModelIndex} (row column : Int) : Item m p → (m.index row column p).isValid → Item m (m.index row column p)

/-- The model agrees with itself at the row and column below the item. -/
structure AgreesAt (m : ItemModel Client) (row column : Int) (p : QModelIndex) : Prop where
  valid : (m.index row column p).isValid ↔ 0 ≤ row ∧ row < m.rowCount p ∧ 0 ≤ column ∧ column < m.columnCount p
  parent : (m.index row column p).isValid → m.parent (m.index row column p) = p
  inside : (m.index row column p).isValid → ∀ role, m.data (m.index row column p) role ≠ .outside

end ItemModel

def ClientModel.itemModel {Client : Type u} (plainText : String → String) (m : ClientModel Client) : ItemModel Client :=
  ⟨m.rowCount,m.columnCount,m.index,m.parent,m.data plainText⟩

def DesktopModel.itemModel {Client : Type u} (desktopName : Int → String) (plainText : String → String)
    (m : DesktopModel Client) : ItemModel Client :=
  ⟨m.rowCount,m.columnCount,m.index,m.parent,m.data desktopName plainText⟩

section
variable {Client : Type u} {desktopName : Int → String} {plainText : String → String}

variable {row column : Int}

theorem isValid_createIndex {internalId : Nat} :
    (createIndex row column internalId).isValid = true ↔ 0 ≤ row ∧ 0 ≤ column := by
  simp [createIndex,QModelIndex.isValid]

@[simp] theorem isValid_none : QModelIndex.none.isValid = false := rfl

theorem ClientModel.index_cases (m : ClientModel Client) (row column : Int) (p : QModelIndex) :
    (m.index row column p = .none ∧ (row < 0 ∨ column ≠ 0 ∨ p.isValid = true ∨ (m.clientList.length ≤ row ∧ m.clientList ≠ []))) ∨
    (m.index row column p = createIndex row 0 0 ∧ 0 ≤ row ∧ column = 0 ∧ p.isValid = false ∧
      (row < m.clientList.length ∨ m.clientList = [])) := by
  unfold index columnCount
  dsimp only
  rw [Int.mul_one]
  split
  · rename_i refused
    exact .inl ⟨rfl,by tauto⟩
  · rename_i accepted
    split
    · rename_i beyond
      exact .inl ⟨rfl,.inr (.inr (.inr beyond))⟩
    · rename_i before
      refine .inr ⟨rfl,by omega,?_,?_,?_⟩
      · by_contra other; exact accepted (.inr (.inl other))
      · by_contra valid; exact accepted (.inr (.inr (by simpa using valid)))
      · by_cases empty : m.clientList = []
        · exact .inr empty
        · exact .inl (by by_contra le; exact before ⟨by omega,empty⟩)

variable {p : QModelIndex}

theorem ClientModel.item_cases {m : ClientModel Client} (item : (m.itemModel plainText).Item p) :
    p = .none ∨ p.isValid = true := by
  cases item with
  | root => exact .inl rfl
  | index row column _ valid => exact .inr valid

theorem value_or_inside {p : Prop} [Decidable p] {value : QVariant Client} {others : Data Client}
    (inside : ¬ p → others ≠ .outside) : (if p then .value value else others) ≠ .outside := by
  split
  · exact nofun
  · rename_i other
    exact inside other

/-- No access of `data` lies outside the list. -/
theorem ClientModel.data_inside (m : ClientModel Client) (i : QModelIndex) (role : Role) :
    m.data plainText i role ≠ .outside := by
  unfold data
  refine value_or_inside fun valid => value_or_inside fun _ => value_or_inside fun before => ?_
  have nonneg : 0 ≤ i.row := by
    simp only [QModelIndex.isValid,Bool.not_eq_true',decide_eq_false_iff_not,not_not] at valid
    exact valid.1
  obtain ⟨row,same⟩ := Int.eq_ofNat_of_zero_le nonneg
  rw [same] at before ⊢
  have inside : row < m.clientList.length := by omega
  rw [Int.toNat_natCast,List.getElem?_eq_getElem inside]
  cases m.clientList[row] with
  | none => exact nofun
  | some client =>
    dsimp only
    iterate 6 refine value_or_inside fun _ => ?_
    exact nofun

theorem ClientModel.agreesAt_iff (m : ClientModel Client) (item : (m.itemModel plainText).Item p)
    (row column : Int) : (m.itemModel plainText).AgreesAt row column p ↔
      ¬ (p = .none ∧ m.clientList = [] ∧ 0 ≤ row ∧ column = 0) := by
  rcases m.index_cases row column p with ⟨refused,why⟩ | ⟨given,nonneg,rfl,top,inside⟩
  · have invalid : (m.index row column p).isValid = false := by rw [refused]; rfl
    refine iff_of_true ⟨?_,?_,?_⟩ ?_
    · show (m.index row column p).isValid = true ↔ 0 ≤ row ∧ row < m.rowCount p ∧ 0 ≤ column ∧ column < 1
      rw [invalid,rowCount]
      refine iff_of_false (by simp) ?_
      rintro ⟨nonneg,before,left,right⟩
      split at before
      · omega
      · rename_i top
        rcases why with negative | other | valid | ⟨beyond,-⟩
        · omega
        · omega
        · exact top valid
        · omega
    · exact fun valid => absurd valid (by rw [show (m.itemModel plainText).index row column p = _ from refused]; simp)
    · exact fun valid => absurd valid (by rw [show (m.itemModel plainText).index row column p = _ from refused]; simp)
    · rintro ⟨rfl,empty,nonneg,first⟩
      rcases why with negative | other | valid | ⟨-,some⟩
      · omega
      · exact other first
      · cases valid
      · exact some empty
  · have root : p = .none := by
      rcases item_cases item with root | valid
      · exact root
      · rw [top] at valid; cases valid
    subst root
    have valid : (m.index row 0 .none).isValid = true := by rw [given,isValid_createIndex]; exact ⟨nonneg,by decide⟩
    have rows : m.rowCount .none = m.clientList.length := if_neg (by simp)
    constructor
    · rintro agrees ⟨-,empty,-,-⟩
      have range := agrees.valid.mp valid
      have before : row < m.rowCount .none := range.2.1
      rw [rows,empty,List.length_nil] at before
      exact absurd nonneg (by omega)
    · intro covered
      have before : row < m.clientList.length := by
        rcases inside with before | empty
        · exact before
        · exact absurd ⟨rfl,empty,nonneg,rfl⟩ covered
      refine ⟨iff_of_true valid ⟨nonneg,?_,Int.le_refl 0,Int.zero_lt_one⟩,fun _ => rfl,fun _ role => data_inside m _ role⟩
      show row < m.rowCount .none
      rw [rows]
      exact before

theorem DesktopModel.index_none (m : DesktopModel Client) (row column : Int) : m.index row column .none =
    if column = 0 ∧ 0 ≤ row ∧ row ≤ m.desktopList.length ∧ m.desktopList ≠ [] then createIndex row column 0 else .none := by
  by_cases accepted : column = 0 ∧ 0 ≤ row ∧ row ≤ m.desktopList.length ∧ m.desktopList ≠ []
  · obtain ⟨first,nonneg,le,some⟩ := accepted
    have before : ¬ (row > m.desktopList.length ∨ m.desktopList = []) := by
      rintro (more | empty)
      · omega
      · exact some empty
    rw [index,if_neg (not_not.mpr first),if_neg (by omega),if_neg (by simp),if_neg before,if_pos ⟨first,nonneg,le,some⟩]
  · rw [if_neg accepted,index]
    by_cases first : column = 0
    · by_cases negative : row < 0
      · rw [if_neg (not_not.mpr first),if_pos negative]
      · have beyond : row > m.desktopList.length ∨ m.desktopList = [] := by
          by_contra before
          rw [not_or] at before
          exact accepted ⟨first,by omega,by omega,before.2⟩
        rw [if_neg (not_not.mpr first),if_neg negative,if_neg (by simp),if_pos beyond]
    · rw [if_pos first]

variable {m : DesktopModel Client}

theorem DesktopModel.below_desktop {desktop : Nat} (inside : desktop < m.desktopList.length) (row column : Int) :
    m.rowCount (createIndex desktop 0 0) = (m.clientModels m.desktopList[desktop]).clientList.length ∧
    m.index row column (createIndex desktop 0 0) =
      if column = 0 ∧ 0 ≤ row ∧ row < (m.clientModels m.desktopList[desktop]).clientList.length then
        createIndex row column (desktop+1) else .none := by
  have valid : (createIndex desktop 0 0).isValid = true := isValid_createIndex.mpr ⟨by omega,by decide⟩
  have model : m.modelAt (createIndex desktop 0 0).row = some (m.clientModels m.desktopList[desktop]) := by
    show m.modelAt (desktop : Int) = _
    rw [modelAt,if_neg (by omega),Int.toNat_natCast,List.getElem?_eq_getElem inside]
    rfl
  have rows : (m.clientModels m.desktopList[desktop]).rowCount .none =
      (m.clientModels m.desktopList[desktop]).clientList.length := if_neg (by simp)
  have there : ¬ ((createIndex desktop 0 0).row < 0 ∨ (createIndex desktop 0 0).row ≥ m.desktopList.length ∨
      (createIndex desktop 0 0).internalId ≠ 0) := by
    simp only [createIndex]
    omega
  constructor
  · rw [rowCount,if_pos valid,if_neg (fun beyond => there (.inr beyond.symm)),model]
    exact rows
  · rw [index,if_pos valid,if_neg there,model]
    dsimp only
    rw [rows]
    split_ifs with other negative beyond accepted accepted accepted
    all_goals first | rfl | (exfalso; omega)

theorem DesktopModel.below_other {desktop : Int} {internalId : Nat} (nonneg : 0 ≤ desktop)
    (other : (m.desktopList.length : Int) ≤ desktop ∨ internalId ≠ 0) (row column : Int) :
    m.rowCount (createIndex desktop 0 internalId) = 0 ∧ m.index row column (createIndex desktop 0 internalId) = .none := by
  have valid : (createIndex desktop 0 internalId).isValid = true := isValid_createIndex.mpr ⟨nonneg,by decide⟩
  have none : (createIndex desktop 0 internalId).internalId ≠ 0 ∨
      (createIndex desktop 0 internalId).row ≥ m.desktopList.length := other.symm
  have refused : (createIndex desktop 0 internalId).row < 0 ∨
      (createIndex desktop 0 internalId).row ≥ m.desktopList.length ∨
      (createIndex desktop 0 internalId).internalId ≠ 0 := .inr other
  constructor
  · rw [rowCount,if_pos valid,if_pos none]
  · rw [index,if_pos valid,if_pos refused]
    split_ifs <;> rfl

theorem DesktopModel.item_cases
    (item : (m.itemModel desktopName plainText).Item p) :
    p = .none ∨ (∃ row : Nat, row ≤ m.desktopList.length ∧ p = createIndex row 0 0) ∨
    (∃ row desktop : Nat, p = createIndex row 0 (desktop+1)) := by
  induction item with
  | root => exact .inl rfl
  | @index p row column _ valid ih =>
    show m.index row column p = _ ∨ (∃ n : Nat, n ≤ _ ∧ m.index row column p = _) ∨ ∃ n d : Nat, m.index row column p = _
    have valid : (m.index row column p).isValid = true := valid
    rcases ih with rfl | ⟨desktop,le,rfl⟩ | ⟨client,desktop,rfl⟩
    · rw [index_none] at valid ⊢
      split at valid
      · rename_i accepted
        rw [if_pos accepted]
        obtain ⟨rfl,nonneg,le,-⟩ := accepted
        obtain ⟨n,rfl⟩ := Int.eq_ofNat_of_zero_le nonneg
        exact .inr (.inl ⟨n,by omega,rfl⟩)
      · cases valid
    · by_cases inside : desktop < m.desktopList.length
      · rw [(below_desktop inside row column).2] at valid ⊢
        split at valid
        · rename_i accepted
          rw [if_pos accepted]
          obtain ⟨rfl,nonneg,-⟩ := accepted
          obtain ⟨n,rfl⟩ := Int.eq_ofNat_of_zero_le nonneg
          exact .inr (.inr ⟨n,desktop,rfl⟩)
        · cases valid
      · rw [(below_other (Int.natCast_nonneg desktop) (.inl (by omega)) row column).2] at valid
        cases valid
    · rw [(below_other (Int.natCast_nonneg client) (.inr (Nat.succ_ne_zero desktop)) row column).2] at valid
      cases valid

/-- No access of `data` lies outside the lists. -/
theorem DesktopModel.data_inside (m : DesktopModel Client) (i : QModelIndex) (role : Role) :
    m.data desktopName plainText i role ≠ .outside := by
  unfold data
  split
  · simp
  · rename_i accepted
    rw [not_or,not_not] at accepted
    split
    · rename_i child
      have desktop : i.internalId ≠ 0 ∧ ((i.internalId : Int)-1 < m.desktopList.length) := by
        unfold parent at child
        dsimp only at child
        split_ifs at child with top beyond
        · exact absurd child (by simp)
        · exact absurd child (by simp)
        · exact ⟨fun zero => top (.inr zero),by omega⟩
      rw [List.getElem?_eq_getElem (show i.internalId-1 < m.desktopList.length by omega)]
      exact ClientModel.data_inside _ _ role
    · split
      · simp
      · rename_i before
        have nonneg : 0 ≤ i.row := by
          have valid : i.isValid = true := by simpa using accepted.1
          exact (of_decide_eq_true valid).1
        rw [List.getElem?_eq_getElem (show i.row.toNat < m.desktopList.length by omega)]
        dsimp only
        iterate 3 refine value_or_inside fun _ => ?_
        exact nofun

theorem agreesAt_of_none {m : ItemModel Client} (rows : m.rowCount p = 0)
    (refused : m.index row column p = .none) : m.AgreesAt row column p := by
  have invalid : ¬ (m.index row column p).isValid = true := by rw [refused]; simp
  refine ⟨iff_of_false invalid ?_,fun valid => absurd valid invalid,fun valid => absurd valid invalid⟩
  rintro ⟨nonneg,before,-⟩
  omega

theorem createIndex_ne_none {internalId : Nat} : createIndex row column internalId ≠ .none := by
  simp [createIndex,QModelIndex.none]

theorem DesktopModel.parent_client {desktop : Nat} (inside : desktop < m.desktopList.length)
    (valid : (createIndex row column (desktop+1)).isValid = true) :
    m.parent (createIndex row column (desktop+1)) = createIndex desktop 0 0 := by
  have child : ¬ ((!(createIndex row column (desktop+1)).isValid) = true ∨
      (createIndex row column (desktop+1)).internalId = 0) := by
    rw [valid]
    simp [createIndex]
  have back : ((createIndex row column (desktop+1)).internalId : Int)-1 = desktop := by
    simp only [createIndex]
    omega
  rw [DesktopModel.parent,if_neg child]
  dsimp only
  rw [back,if_neg (by omega)]

theorem DesktopModel.agreesAt_desktop {desktop : Nat} (inside : desktop < m.desktopList.length)
    (row column : Int) : (m.itemModel desktopName plainText).AgreesAt row column (createIndex desktop 0 0) := by
  obtain ⟨rows,given⟩ := below_desktop inside row column
  refine ⟨?_,fun valid => ?_,fun _ role => data_inside m _ role⟩
  · show (m.index row column (createIndex desktop 0 0)).isValid = true ↔
      0 ≤ row ∧ row < m.rowCount (createIndex desktop 0 0) ∧ 0 ≤ column ∧ column < 1
    rw [rows,given]
    split
    · rename_i accepted
      exact iff_of_true (isValid_createIndex.mpr ⟨accepted.2.1,by omega⟩) ⟨accepted.2.1,accepted.2.2,by omega,by omega⟩
    · rename_i refused
      refine iff_of_false (by simp) ?_
      rintro ⟨nonneg,before,left,right⟩
      exact refused ⟨by omega,nonneg,before⟩
  · have valid : (m.index row column (createIndex desktop 0 0)).isValid = true := valid
    show m.parent (m.index row column (createIndex desktop 0 0)) = createIndex desktop 0 0
    rw [given] at valid ⊢
    split at valid
    · rename_i accepted
      rw [if_pos accepted]
      exact parent_client inside valid
    · cases valid

theorem DesktopModel.agreesAt_iff (m : DesktopModel Client)
    (item : (m.itemModel desktopName plainText).Item p) (row column : Int) :
    (m.itemModel desktopName plainText).AgreesAt row column p ↔
      ¬ (p = .none ∧ m.desktopList ≠ [] ∧ row = m.desktopList.length ∧ column = 0) := by
  rcases item_cases item with rfl | ⟨desktop,le,rfl⟩ | ⟨client,desktop,rfl⟩
  · have rows : m.rowCount .none = m.desktopList.length := if_neg (by simp)
    constructor
    · rintro agrees ⟨-,some,rfl,rfl⟩
      have valid : (m.index m.desktopList.length 0 .none).isValid = true := by
        rw [index_none,if_pos ⟨rfl,by omega,by omega,some⟩]
        exact isValid_createIndex.mpr ⟨by omega,by decide⟩
      have before : (m.desktopList.length : Int) < m.rowCount .none := (agrees.valid.mp valid).2.1
      omega
    · intro covered
      refine ⟨?_,fun _ => ?_,fun _ role => data_inside m _ role⟩
      · show (m.index row column .none).isValid = true ↔ 0 ≤ row ∧ row < m.rowCount .none ∧ 0 ≤ column ∧ column < 1
        rw [index_none,rows]
        split
        · rename_i accepted
          obtain ⟨rfl,nonneg,le,some⟩ := accepted
          refine iff_of_true (isValid_createIndex.mpr ⟨nonneg,by decide⟩) ⟨nonneg,?_,by decide,by decide⟩
          by_contra last
          exact covered ⟨rfl,some,by omega,rfl⟩
        · rename_i refused
          refine iff_of_false (by simp) ?_
          rintro ⟨nonneg,before,left,right⟩
          refine refused ⟨by omega,nonneg,by omega,fun empty => ?_⟩
          rw [empty,List.length_nil] at before
          omega
      · show m.parent (m.index row column .none) = .none
        rw [index_none]
        split
        · exact if_pos (.inr rfl)
        · exact if_pos (.inl rfl)
  · refine iff_of_true ?_ (fun failing => createIndex_ne_none failing.1)
    by_cases inside : desktop < m.desktopList.length
    · exact agreesAt_desktop inside row column
    · obtain ⟨rows,refused⟩ := below_other (m := m) (Int.natCast_nonneg desktop) (.inl (by omega)) row column
      exact agreesAt_of_none rows refused
  · refine iff_of_true ?_ (fun failing => createIndex_ne_none failing.1)
    obtain ⟨rows,refused⟩ := below_other (m := m) (Int.natCast_nonneg client) (.inr (Nat.succ_ne_zero desktop)) row column
    exact agreesAt_of_none rows refused

end

/-- Below an item, a row and a column agree in both models except for the row
    behind the last desktop, and for the first column of an empty list of clients. -/
theorem models_agree_iff {Client : Type u} (desktopName : Int → String) (plainText : String → String)
    (desktops : DesktopModel Client) (clients : ClientModel Client) {p q : QModelIndex}
    (item : (desktops.itemModel desktopName plainText).Item p) (item' : (clients.itemModel plainText).Item q)
    (row column : Int) :
    ((desktops.itemModel desktopName plainText).AgreesAt row column p ∧ (clients.itemModel plainText).AgreesAt row column q) ↔
      ¬ (p = .none ∧ desktops.desktopList ≠ [] ∧ row = desktops.desktopList.length ∧ column = 0) ∧
      ¬ (q = .none ∧ clients.clientList = [] ∧ 0 ≤ row ∧ column = 0) :=
  and_congr (desktops.agreesAt_iff item row column) (clients.agreesAt_iff item' row column)

theorem models_agree_iff_first_row :
    let clients : ClientModel Nat := ⟨[none]⟩
    let desktops : DesktopModel Nat := ⟨[1],fun _ => clients⟩
    ((desktops.itemModel (fun _ => "") id).AgreesAt 0 0 .none ∧ (clients.itemModel id).AgreesAt 0 0 .none) ↔
      ¬ (QModelIndex.none = .none ∧ desktops.desktopList ≠ [] ∧ (0 : Int) = desktops.desktopList.length ∧ (0 : Int) = 0) ∧
      ¬ (QModelIndex.none = .none ∧ clients.clientList = [] ∧ (0 : Int) ≤ 0 ∧ (0 : Int) = 0) :=
  models_agree_iff (fun _ => "") id _ _ .root .root 0 0

/-- With one desktop, the row behind it has a valid index; in an empty list of
    clients every row has one, and closing the first client looks outside the list. -/
theorem models_disagree :
    let clients : ClientModel Nat := ⟨[]⟩
    let desktops : DesktopModel Nat := ⟨[1],fun _ => clients⟩
    ((desktops.index 1 0 .none).isValid = true ∧ desktops.rowCount .none = 1 ∧
      ¬ (desktops.itemModel (fun _ => "") id).AgreesAt 1 0 .none) ∧
    (clients.index 0 0 .none).isValid = true ∧ clients.rowCount .none = 0 ∧
      ¬ (clients.itemModel id).AgreesAt 0 0 .none ∧ (clients.close 0).isNone := by
  refine ⟨⟨by decide,by decide,fun agrees => ?_⟩,by decide,by decide,fun agrees => ?_,by decide⟩
  · exact absurd (agrees.valid.mp (by decide)).2.1 (by decide)
  · exact absurd (agrees.valid.mp (by decide)).2.1 (by decide)

end KdeWorkspace.TabBoxModels

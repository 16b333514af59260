/-
The forms of `AccountController` and what their data annotations refuse.

The binder turns an empty text into null, so an empty text stands for null here. The
validators of a field run in the order of its attributes, those of a form in the order
of its fields, and each one that refuses adds its message under the name of the field.
-/
import CgGuide.DotNet

set_option autoImplicit false

namespace CgGuide.AccountModels

open CgGuide.DotNet

/-! ## Validators -/

/-- What stands under a key of `ModelState`: a text, or an exception without one. -/
inductive ModelError
  | message (text : String)
  | exception
deriving DecidableEq

/-- `ModelState`, as its errors under their keys. -/
abbrev ModelState : Type := List (String × ModelError)

/-- `ModelState.IsValid`. -/
def ModelState.isValid (errors : ModelState) : Bool := errors.isEmpty

/-- `Char.IsWhiteSpace`. -/
def isWhiteSpace (c : Char) : Bool :=
  decide (c.toNat ∈ [0x20, 0x85, 0xA0, 0x1680, 0x180E, 0x2028, 0x2029, 0x202F, 0x205F, 0x3000])
    || decide (0x09 ≤ c.toNat ∧ c.toNat ≤ 0x0D)
    || decide (0x2000 ≤ c.toNat ∧ c.toNat ≤ 0x200A)

/-- Nothing, or nothing but white space. -/
def isBlank (value : String) : Bool := value.toList.all isWhiteSpace

/-- `[Required]`. -/
def required (displayName value : String) : Option String :=
  if isBlank value then some ("The " ++ displayName ++ " field is required.") else none

/-- `[StringLength(100, MinimumLength = 6)]`, which passes null. -/
def stringLength (displayName value : String) : Option String :=
  if value = "" ∨ 6 ≤ length value ∧ length value ≤ 100 then none
  else some ("The " ++ displayName ++ " must be at least 6 characters long.")

/-- `[Compare]`. -/
def compare (value other errorMessage : String) : Option String :=
  if value = other then none else some errorMessage

/-- The messages of one field under its key. -/
def fieldErrors (key : String) (messages : List (Option String)) : ModelState :=
  (messages.filterMap id).map (fun text => (key, .message text))

/-! ## Forms -/

structure LoginModel where
  userName : String
  password : String
deriving DecidableEq

def LoginModel.validate (model : LoginModel) : ModelState :=
  fieldErrors "UserName" [required "User name" model.userName]
    ++ fieldErrors "Password" [required "Password" model.password]

structure RegisterModel where
  userName : String
  password : String
  confirmPassword : String
deriving DecidableEq

def RegisterModel.validate (model : RegisterModel) : ModelState :=
  fieldErrors "UserName" [required "User name" model.userName]
    ++ fieldErrors "Password" [required "Password" model.password,
      stringLength "Password" model.password]
    ++ fieldErrors "ConfirmPassword" [compare model.confirmPassword model.password
      "The password and confirmation password do not match."]

structure LocalPasswordModel where
  oldPassword : String
  newPassword : String
  confirmPassword : String
deriving DecidableEq

def LocalPasswordModel.validate (model : LocalPasswordModel) : ModelState :=
  fieldErrors "OldPassword" [required "Current password" model.oldPassword]
    ++ fieldErrors "NewPassword" [required "New password" model.newPassword,
      stringLength "New password" model.newPassword]
    ++ fieldErrors "ConfirmPassword" [compare model.confirmPassword model.newPassword
      "The new password and confirmation password do not match."]

/-- `RegisterExternalLoginModel`; the data are what `TryDeserializeProviderUserId` makes
of them, nothing when they are not the site's own. -/
structure RegisterExternalLoginModel (Login : Type) where
  userName : String
  externalLoginData : Option Login

def RegisterExternalLoginModel.validate {Login : Type} (model : RegisterExternalLoginModel Login) :
    ModelState :=
  fieldErrors "UserName" [required "User name" model.userName]

/-! ## What a valid form says -/

/-- A validator that is not content is an error of the field. -/
theorem mem_fieldErrors {key text : String} {messages : List (Option String)}
    (h : some text ∈ messages) : (key, ModelError.message text) ∈ fieldErrors key messages :=
  List.mem_map.mpr ⟨text, List.mem_filterMap.mpr ⟨some text, h, rfl⟩, rfl⟩

/-- A field without errors is one that its validators pass. -/
theorem fieldErrors_eq_nil {key : String} {messages : List (Option String)} :
    fieldErrors key messages = [] ↔ ∀ message ∈ messages, message = none := by
  rw [fieldErrors, List.map_eq_nil_iff, List.filterMap_eq_nil_iff]
  exact Iff.rfl

theorem required_eq_none {displayName value : String} :
    required displayName value = none ↔ isBlank value = false := by
  unfold required
  by_cases h : isBlank value = true
  · simp [h]
  · simp [h]

/-- A form that was filled in has a name and a password. -/
theorem LoginModel.isValid_iff (model : LoginModel) :
    ModelState.isValid model.validate = true
      ↔ isBlank model.userName = false ∧ isBlank model.password = false := by
  rw [ModelState.isValid, List.isEmpty_iff, validate, List.append_eq_nil_iff, fieldErrors_eq_nil,
    fieldErrors_eq_nil, List.forall_mem_singleton, List.forall_mem_singleton, required_eq_none,
    required_eq_none]

theorem RegisterModel.filled {model : RegisterModel}
    (h : ModelState.isValid model.validate = true) :
    isBlank model.userName = false ∧ isBlank model.password = false := by
  rw [ModelState.isValid, List.isEmpty_iff, validate, List.append_eq_nil_iff,
    List.append_eq_nil_iff, fieldErrors_eq_nil, fieldErrors_eq_nil] at h
  exact ⟨required_eq_none.mp (h.1.1 _ List.mem_cons_self),
    required_eq_none.mp (h.1.2 _ List.mem_cons_self)⟩

/-- `Manage` clears the errors of the old password where there is none to give. -/
def LocalPasswordModel.validateNew (model : LocalPasswordModel) : ModelState :=
  model.validate.filter (fun e => decide (e.1 ≠ "OldPassword"))

/-- What is left are the errors of the other two fields. -/
theorem LocalPasswordModel.filled_of_validateNew {model : LocalPasswordModel}
    (h : ModelState.isValid model.validateNew = true) : isBlank model.newPassword = false := by
  rw [ModelState.isValid, List.isEmpty_iff, validateNew, List.filter_eq_nil_iff] at h
  by_contra hblank
  have hrequired : some ("The New password field is required.")
      ∈ [required "New password" model.newPassword,
        stringLength "New password" model.newPassword] := by
    rw [Bool.not_eq_false] at hblank
    simp [required, hblank]
  refine h ("NewPassword", .message "The New password field is required.") ?_ (by decide)
  exact List.mem_append_left _ (List.mem_append_right _ (mem_fieldErrors hrequired))

theorem LocalPasswordModel.filled {model : LocalPasswordModel}
    (h : ModelState.isValid model.validate = true) : isBlank model.newPassword = false := by
  apply filled_of_validateNew
  rw [ModelState.isValid, List.isEmpty_iff] at h ⊢
  rw [validateNew, h, List.filter_nil]

theorem RegisterExternalLoginModel.filled {Login : Type}
    {model : RegisterExternalLoginModel Login} (h : ModelState.isValid model.validate = true) :
    isBlank model.userName = false := by
  rw [ModelState.isValid, List.isEmpty_iff, validate, fieldErrors_eq_nil,
    List.forall_mem_singleton] at h
  exact required_eq_none.mp h

end CgGuide.AccountModels

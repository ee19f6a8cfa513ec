import Mathlib.Data.List.Basic

/-! The errors a request ends with. -/

structure HttpException where
  status : Nat
  message : String
  errors : List String := []
  deriving DecidableEq, Repr

namespace HttpException

def badRequest (message : String) (errors : List String := []) : HttpException :=
  ⟨400, message, errors⟩

def unauthorized (message : String) : HttpException := ⟨401, message, []⟩

def notFound (message : String) : HttpException := ⟨404, message, []⟩

def internalServerError : HttpException := ⟨500, "Internal server error", []⟩

end HttpException

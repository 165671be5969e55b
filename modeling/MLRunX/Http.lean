namespace MLRunX.Http

inductive StatusCode
  | badRequest | unauthorized | forbidden | notFound | conflict | preconditionFailed
  | tooManyRequests | internalServerError | serviceUnavailable
  deriving DecidableEq, Repr

def StatusCode.code : StatusCode → Nat
  | .badRequest => 400
  | .unauthorized => 401
  | .forbidden => 403
  | .notFound => 404
  | .conflict => 409
  | .preconditionFailed => 412
  | .tooManyRequests => 429
  | .internalServerError => 500
  | .serviceUnavailable => 503

structure HttpError where
  status : StatusCode
  message : String
  deriving DecidableEq, Repr

abbrev Answer (α : Type) := Except HttpError α

/-- Storage failures reach the client without their text. -/
def internalError : HttpError := ⟨.internalServerError, "Internal server error"⟩

end MLRunX.Http

import DailyFresh.Python.Text
import DailyFresh.Regex.Engines

/-!
# The registration page

The pattern that both sides of the registration have for an e-mail address: `RegistView.post` gives it to
`re.match`, and the script of the page tests it whenever the field is left and when the form is submitted.
-/

namespace DailyFresh

open Python Regex

/-- `[a-z0-9][\w.\-]*@[a-z0-9\-]+(\.[a-z]{2,5}){1,2}`. -/
def emailAddress : Pattern :=
  .seq (.set [.range 'a' 'z', .range '0' '9']) <|
  .seq (Pattern.set [.word, .char '.', .char '-']).star <|
  .seq (.set [.char '@']) <|
  .seq (Pattern.set [.range 'a' 'z', .range '0' '9', .char '-']).plus <|
  .rep (.seq (.set [.char '.']) (.rep (.set [.range 'a' 'z']) 2 (some 5) (by decide))) 1 (some 2) (by decide)

/-- `^[a-z0-9][\w.\-]*@[a-z0-9\-]+(\.[a-z]{2,5}){1,2}$`. -/
def emailPattern : Pattern := emailAddress.line

/-- What the script says of the e-mail address: the flags that `check_email` can set, and what is shown next
to the field. -/
structure EmailErrors where
  errorEmail : Bool
  errorCheckPassword : Bool
  shown : Option String
  deriving DecidableEq

namespace RegisterPage

/-- `re.test($('#email').val())`. -/
def emailTest (email : Str) : Bool := javaScript.test emailPattern (toUtf16 email)

/-- `check_email`. What it sets for an address that it refuses is the flag of the second password. -/
def checkEmail (email : Str) (errors : EmailErrors) : EmailErrors :=
  if emailTest email then { errors with errorEmail := false, shown := none }
  else { errors with errorCheckPassword := true, shown := some "你输入的邮箱格式不正确" }

end RegisterPage

end DailyFresh

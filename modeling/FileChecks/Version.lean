/-! Version of the library. -/
namespace FileChecks

def version : String := "1.0.0"

end FileChecks

import Toolbox.Go.Strings
import Toolbox.Go.Utf8
import Toolbox.I18n.Translator
import Toolbox.I18n.Offsets
import Toolbox.I18n.Store
import Toolbox.I18n.Render
import Toolbox.I18n.Registry
import Toolbox.I18n.Frame
import Toolbox.I18n.Import
import Toolbox.I18n.Export
import Toolbox.I18n.Fallback
import Toolbox.I18n.Template
import Toolbox.I18n.Grammar
import Toolbox.I18n.Package
import Toolbox.I18n.Errors
import Toolbox.Crypto.Hex
import Toolbox.Crypto.Cbc
import Toolbox.Crypto.Pem
import Toolbox.Text.HereDoc
import Toolbox.Collection.Unique
import Toolbox.Gin.Context
import Toolbox.Gin.Session
import Toolbox.Gin.JwtAuth
import Toolbox.Gin.Recover
import Toolbox.Gin.Negotiate
import Toolbox.Gin.Version
import Toolbox.Gin.Filter
import Toolbox.Gin.Localizer
import Toolbox.Gin.MediaType
import Toolbox.K8s.Waiter
import Toolbox.K8s.Condition
import Toolbox.K8s.Run

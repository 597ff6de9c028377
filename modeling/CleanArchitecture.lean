import CleanArchitecture.RequestParserGrammar
import CleanArchitecture.RequestAssembly
import CleanArchitecture.ConnectionReuse
import CleanArchitecture.RequestBoundaries
import CleanArchitecture.ConnectionManager
import CleanArchitecture.ContentLength
import CleanArchitecture.StatementNames
import CleanArchitecture.SessionAuthenticity
import CleanArchitecture.RegisterLogin
import CleanArchitecture.SessionFrame
import CleanArchitecture.ValidUsernames
import CleanArchitecture.CommandProtocol
import CleanArchitecture.FailedRequests
import CleanArchitecture.RequestHandler
import CleanArchitecture.Interleaving
import CleanArchitecture.StoreProtocol
import CleanArchitecture.ConcurrentLogins
import CleanArchitecture.ConcurrentSessions
import CleanArchitecture.ConnectionPool
import CleanArchitecture.PoolSafety
import CleanArchitecture.ResponseFraming
import CleanArchitecture.StoreOperations
import CleanArchitecture.CleanSessions
import CleanArchitecture.CookieHeaders
import CleanArchitecture.BasePaths
import CleanArchitecture.LengthValues
import CleanArchitecture.ProgramHistory
import CleanArchitecture.LoginCalls
import CleanArchitecture.SessionWrites
import CleanArchitecture.AnonymousRequests
import CleanArchitecture.SessionRoundTrip
import CleanArchitecture.CompletionQueue
import CleanArchitecture.CookieRoundTrip
import CleanArchitecture.HeaderScan
import CleanArchitecture.FlatbufferLogin
import CleanArchitecture.HeadRoundTrip
import CleanArchitecture.SetCookie
import CleanArchitecture.SetCookieDecoding
import CleanArchitecture.JsonArray
import CleanArchitecture.ListBodies
import CleanArchitecture.QueryOutcomes
import CleanArchitecture.StoreOutcomes
import CleanArchitecture.UsernamePolicy
import CleanArchitecture.PasswordHistory
import CleanArchitecture.ParserInvariant
import CleanArchitecture.VersionNumbers
import CleanArchitecture.UrlDecode
import CleanArchitecture.IntegerReads
import CleanArchitecture.EnvFile
import CleanArchitecture.HeadBound
import CleanArchitecture.RequestThreads
import CleanArchitecture.AccountHistory
import CleanArchitecture.AuthenticatedSessions
import CleanArchitecture.Singletons
import CleanArchitecture.PasswordSecrecy
import CleanArchitecture.SessionOverTheWire
import CleanArchitecture.Startup
import CleanArchitecture.SurvivingRequests
import CleanArchitecture.SessionAnswers
import CleanArchitecture.QueueRefinement
import CleanArchitecture.GracefulStop

import JavaAtlas.Oracle

/-!
# The Java platform

A table of platform types: the public types of `java.lang`, which every unit sees by their simple names, and
well-known types of the other packages that the exclusion rules name. No reflection is done; a type that
is not in the table is not known.
-/

namespace JavaAtlas.Oracle

def javaLangTypes : List String :=
  ["AbstractMethodError", "Appendable", "ArithmeticException", "ArrayIndexOutOfBoundsException",
    "ArrayStoreException", "AssertionError", "AutoCloseable", "Boolean", "BootstrapMethodError",
    "Byte", "CharSequence", "Character", "Class", "ClassCastException", "ClassCircularityError",
    "ClassFormatError", "ClassLoader", "ClassNotFoundException", "ClassValue",
    "CloneNotSupportedException", "Cloneable", "Comparable", "Deprecated", "Double", "Enum",
    "EnumConstantNotPresentException", "Error", "Exception", "ExceptionInInitializerError",
    "Float", "FunctionalInterface", "IllegalAccessError", "IllegalAccessException",
    "IllegalArgumentException", "IllegalCallerException", "IllegalMonitorStateException",
    "IllegalStateException", "IllegalThreadStateException", "IncompatibleClassChangeError",
    "IndexOutOfBoundsException", "InheritableThreadLocal", "InstantiationError",
    "InstantiationException", "Integer", "InternalError", "InterruptedException", "Iterable",
    "LayerInstantiationException", "LinkageError", "Long", "MatchException", "Math", "Module",
    "ModuleLayer", "NegativeArraySizeException", "NoClassDefFoundError", "NoSuchFieldError",
    "NoSuchFieldException", "NoSuchMethodError", "NoSuchMethodException", "NullPointerException",
    "Number", "NumberFormatException", "Object", "OutOfMemoryError", "Override", "Package",
    "Process", "ProcessBuilder", "ProcessHandle", "Readable", "Record",
    "ReflectiveOperationException", "Runnable", "Runtime", "RuntimeException",
    "RuntimePermission", "SafeVarargs", "SecurityException", "SecurityManager", "Short",
    "StackOverflowError", "StackTraceElement", "StackWalker", "StrictMath", "String",
    "StringBuffer", "StringBuilder", "StringIndexOutOfBoundsException", "SuppressWarnings",
    "System", "Thread", "ThreadDeath", "ThreadGroup", "ThreadLocal", "Throwable",
    "TypeNotPresentException", "UnknownError", "UnsatisfiedLinkError",
    "UnsupportedClassVersionError", "UnsupportedOperationException", "VerifyError",
    "VirtualMachineError", "Void", "WrongThreadException"]

/-- Well-known types of other platform packages, by package. -/
def platformTypesByPackage : List (String × List String) :=
  [
    ("java.util", ["AbstractList", "AbstractMap", "ArrayDeque", "ArrayList", "Arrays", "BitSet",
      "Calendar", "Collection", "Collections", "Comparator", "ConcurrentModificationException",
      "Date", "Deque", "EnumMap", "EnumSet", "HashMap", "HashSet", "Iterator", "LinkedHashMap",
      "LinkedHashSet", "LinkedList", "List", "ListIterator", "Locale", "Map", "NavigableMap",
      "NoSuchElementException", "Objects", "Optional", "OptionalInt", "PriorityQueue",
      "Properties", "Queue", "Random", "Scanner", "Set", "SortedMap", "SortedSet", "Stack",
      "StringJoiner", "Timer", "TreeMap", "TreeSet", "UUID", "Vector"]),
    ("java.util.concurrent", ["ArrayBlockingQueue", "BlockingQueue", "Callable",
      "CompletableFuture", "CompletionStage", "ConcurrentHashMap", "ConcurrentLinkedQueue",
      "ConcurrentMap", "CopyOnWriteArrayList", "CountDownLatch", "CyclicBarrier",
      "ExecutionException", "Executor", "ExecutorService", "Executors", "ForkJoinPool",
      "Future", "LinkedBlockingQueue", "ScheduledExecutorService", "Semaphore",
      "ThreadLocalRandom", "ThreadPoolExecutor", "TimeUnit", "TimeoutException"]),
    ("java.util.concurrent.atomic", ["AtomicBoolean", "AtomicInteger", "AtomicLong",
      "AtomicReference"]),
    ("java.util.concurrent.locks", ["Lock", "ReentrantLock"]),
    ("java.util.function", ["BiConsumer", "BiFunction", "Consumer", "Function", "Predicate",
      "Supplier", "UnaryOperator"]),
    ("java.util.regex", ["Matcher", "Pattern"]),
    ("java.util.stream", ["Collectors", "IntStream", "Stream"]),
    ("java.io", ["BufferedReader", "BufferedWriter", "ByteArrayInputStream",
      "ByteArrayOutputStream", "Closeable", "File", "FileInputStream", "FileNotFoundException",
      "FileOutputStream", "FileReader", "FileWriter", "IOException", "InputStream",
      "InputStreamReader", "ObjectInputStream", "ObjectOutputStream", "OutputStream",
      "PrintStream", "PrintWriter", "Reader", "Serializable", "StringReader", "StringWriter",
      "UncheckedIOException", "Writer"]),
    ("java.math", ["BigDecimal", "BigInteger", "MathContext", "RoundingMode"]),
    ("java.time", ["Clock", "DayOfWeek", "Duration", "Instant", "LocalDate", "LocalDateTime",
      "LocalTime", "Month", "OffsetDateTime", "Period", "ZoneId", "ZoneOffset",
      "ZonedDateTime"]),
    ("java.time.format", ["DateTimeFormatter"]),
    ("java.time.temporal", ["ChronoUnit"]),
    ("java.text", ["DateFormat", "DecimalFormat", "MessageFormat", "NumberFormat",
      "ParseException", "SimpleDateFormat"]),
    ("java.nio", ["ByteBuffer", "CharBuffer"]),
    ("java.nio.charset", ["Charset", "StandardCharsets"]),
    ("java.nio.file", ["DirectoryStream", "Files", "InvalidPathException",
      "NoSuchFileException", "Path", "Paths", "StandardOpenOption"]),
    ("java.net", ["HttpURLConnection", "InetAddress", "InetSocketAddress",
      "MalformedURLException", "ServerSocket", "Socket", "URI", "URISyntaxException", "URL"])]

def platformTypes : List String :=
  javaLangTypes.map (fun name => "java.lang." ++ name) ++
    platformTypesByPackage.flatMap fun entry => entry.2.map fun name => entry.1 ++ "." ++ name

def platform : Oracle :=
  Oracle.ofNames "jdk" platformTypes

end JavaAtlas.Oracle
